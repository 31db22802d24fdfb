import DocInsight.Query.Breaker

/-! The breaker's protocol over whole runs. One invariant ties the epoch, the
failure counter and the probing flag to the log of every step taken. -/
namespace DocInsight.Query.BreakerSession

variable {settings : BreakerSettings} {session : BreakerSession}

/-- What every reachable session satisfies. The epoch moves at each opening and
closing, so an issue older than the last change carries an older ticket. -/
structure Invariant (settings : BreakerSettings) (session : BreakerSession) : Prop where
  limit : session.breaker.limit = settings.failures
  seconds : session.breaker.seconds = settings.seconds
  issued : ∀ issue ∈ session.outstanding, issue.stamp < session.log.length
  distinct : session.outstanding.Nodup
  ticket_le : ∀ issue ∈ session.outstanding, issue.ticket ≤ session.breaker.epoch
  stale : ∀ issue ∈ session.outstanding, issue.stamp < lastChange session.log →
    issue.ticket < session.breaker.epoch
  closed : session.breaker.opened = none → session.breaker.probing = false ∧
    session.breaker.failures = failuresSinceSuccess session.log ∧
    session.breaker.failures < session.breaker.limit
  probe : ∀ opened, session.breaker.opened = some opened →
    session.current.length = if session.breaker.probing then 1 else 0
  probe_issue : ∀ opened, session.breaker.opened = some opened → ∀ issue ∈ session.current,
    ∃ entry ∈ session.log, entry.event = .acquired (some issue) ∧
      entry.before.opened = some opened
  cooled : ∀ entry ∈ session.log, entry.opens = true →
    match session.breaker.opened with
    | none => entry.clock + settings.seconds ≤ session.now
    | some opened => entry.clock ≤ opened ∧
        (session.breaker.probing = true → opened + settings.seconds ≤ session.now)
  opened_le : ∀ opened, session.breaker.opened = some opened → opened ≤ session.now

theorem start_invariant (settings : BreakerSettings) (now : ℚ) :
    Invariant settings (start settings now) where
  limit := rfl
  seconds := rfl
  issued := by simp [start]
  distinct := by simp [start]
  ticket_le := by simp [start]
  stale := by simp [start]
  closed := fun _ => ⟨rfl, rfl, settings.failures_ge⟩
  probe := by simp [start, CircuitBreaker.new]
  probe_issue := by simp [start, CircuitBreaker.new]
  cooled := by simp [start]
  opened_le := by simp [start, CircuitBreaker.new]

/-- A step that leaves the epoch, the opening time and the probing flag alone
is neither an opening nor a closing. -/
theorem not_changes_of_same {entry : BreakerEntry}
    (hOpened : entry.after.opened = entry.before.opened)
    (hProbing : entry.after.probing = entry.before.probing) : entry.changes = false := by
  cases h : entry.before.opened <;> cases hp : entry.before.probing <;>
    simp [BreakerEntry.changes, BreakerEntry.opens, CircuitBreaker.opens,
      CircuitBreaker.closes, hOpened, hProbing, h, hp]

theorem not_opens_of_not_changes {entry : BreakerEntry} (h : entry.changes = false) :
    entry.opens = false := by
  simp only [BreakerEntry.changes, Bool.or_eq_false_iff] at h
  exact h.1

theorem lastChange_cons_of_not_changes {entry : BreakerEntry} {log : List BreakerEntry}
    (h : entry.changes = false) : lastChange (entry :: log) = lastChange log := by
  simp [lastChange, h]

theorem lastChange_le (log : List BreakerEntry) : lastChange log ≤ log.length := by
  induction log with
  | nil => simp [lastChange]
  | cons entry earlier ih =>
      simp only [lastChange, List.length_cons]
      split_ifs
      · exact Nat.le_refl _
      · exact Nat.le_succ_of_le ih

/-- Cooldown facts pass to a later clock reading as long as no opening is logged. -/
theorem Invariant.cooled_of_le {clock : ℚ} (inv : Invariant settings session)
    (hClock : session.now ≤ clock) {entry : BreakerEntry} (hEntry : entry ∈ session.log)
    (hOpens : entry.opens = true) :
    match session.breaker.opened with
    | none => entry.clock + settings.seconds ≤ clock
    | some opened => entry.clock ≤ opened ∧
        (session.breaker.probing = true → opened + settings.seconds ≤ clock) := by
  have h := inv.cooled entry hEntry hOpens
  cases hOpened : session.breaker.opened with
  | none =>
      rw [hOpened] at h
      exact h.trans hClock
  | some opened =>
      rw [hOpened] at h
      exact ⟨h.1, fun hp => (h.2 hp).trans hClock⟩

/-- A new issue carries the current epoch and the newest stamp. -/
theorem Invariant.issue_facts (inv : Invariant settings session) {fresh : Issue}
    (hFresh : fresh = ⟨session.breaker.epoch, session.log.length⟩) :
    fresh ∉ session.outstanding ∧ ¬ fresh.stamp < lastChange session.log := by
  subst hFresh
  refine ⟨fun h => Nat.lt_irrefl _ (inv.issued _ h), ?_⟩
  exact not_lt.mpr (lastChange_le session.log)

theorem request_invariant {clock : ℚ} (inv : Invariant settings session)
    (hClock : session.now ≤ clock) : Invariant settings (session.request clock) := by
  rcases session.breaker.acquire_cases clock with
    ⟨opened, hOpened, hReject, hAcquire⟩ | ⟨hOpened, hAcquire⟩ |
    ⟨opened, hOpened, hCool, hProbing, hAcquire⟩
  · -- Rejected: only the clock and the log move.
    have hSame : session.request clock =
        { session with
          now := clock
          log := ⟨clock, .acquired none, session.breaker, session.breaker⟩ :: session.log } := by
      simp [request, hAcquire]
    have hChanges : BreakerEntry.changes
        ⟨clock, .acquired none, session.breaker, session.breaker⟩ = false :=
      not_changes_of_same rfl rfl
    rw [hSame]
    exact {
      limit := inv.limit
      seconds := inv.seconds
      issued := fun issue h => Nat.lt_succ_of_lt (inv.issued issue h)
      distinct := inv.distinct
      ticket_le := inv.ticket_le
      stale := fun issue h hStamp => inv.stale issue h
        (by rwa [lastChange_cons_of_not_changes hChanges] at hStamp)
      closed := fun h => by simpa [failuresSinceSuccess] using inv.closed h
      probe := inv.probe
      probe_issue := by
        intro opened h issue hIssue
        obtain ⟨entry, hEntry, hFacts⟩ := inv.probe_issue opened h issue hIssue
        exact ⟨entry, List.mem_cons_of_mem _ hEntry, hFacts⟩
      cooled := by
        intro entry hEntry hOpens
        rcases List.mem_cons.mp hEntry with rfl | hEntry
        · simp [not_opens_of_not_changes hChanges] at hOpens
        · exact inv.cooled_of_le hClock hEntry hOpens
      opened_le := fun opened h => (inv.opened_le opened h).trans hClock }
  · -- Closed: the caller gets a ticket and the breaker stays as it is.
    set fresh : Issue := ⟨session.breaker.epoch, session.log.length⟩ with hFresh
    have hSame : session.request clock =
        { session with
          now := clock
          outstanding := fresh :: session.outstanding
          log := ⟨clock, .acquired (some fresh), session.breaker, session.breaker⟩ ::
            session.log } := by
      simp [request, hAcquire, hFresh]
    have hChanges : BreakerEntry.changes
        ⟨clock, .acquired (some fresh), session.breaker, session.breaker⟩ = false :=
      not_changes_of_same rfl rfl
    obtain ⟨hNew, hStamp⟩ := inv.issue_facts hFresh
    rw [hSame]
    exact {
      limit := inv.limit
      seconds := inv.seconds
      issued := by
        intro issue h
        rcases List.mem_cons.mp h with rfl | h
        · simp [hFresh]
        · exact Nat.lt_succ_of_lt (inv.issued issue h)
      distinct := List.nodup_cons.mpr ⟨hNew, inv.distinct⟩
      ticket_le := by
        intro issue h
        rcases List.mem_cons.mp h with rfl | h
        · exact Nat.le_refl _
        · exact inv.ticket_le issue h
      stale := by
        intro issue h hLast
        rw [lastChange_cons_of_not_changes hChanges] at hLast
        rcases List.mem_cons.mp h with rfl | h
        · exact absurd hLast hStamp
        · exact inv.stale issue h hLast
      closed := fun h => by simpa [failuresSinceSuccess] using inv.closed h
      probe := fun opened h => by simp [hOpened] at h
      probe_issue := fun opened h => by simp [hOpened] at h
      cooled := by
        intro entry hEntry hOpens
        rcases List.mem_cons.mp hEntry with rfl | hEntry
        · simp [not_opens_of_not_changes hChanges] at hOpens
        · exact inv.cooled_of_le hClock hEntry hOpens
      opened_le := fun opened h => by simp [hOpened] at h }
  · -- Open and cooled down: this issue is the only probe of the epoch.
    set fresh : Issue := ⟨session.breaker.epoch, session.log.length⟩ with hFresh
    set probing : CircuitBreaker := { session.breaker with probing := true } with hBreaker
    have hSame : session.request clock =
        { breaker := probing
          now := clock
          outstanding := fresh :: session.outstanding
          log := ⟨clock, .acquired (some fresh), session.breaker, probing⟩ :: session.log } := by
      simp [request, hAcquire, hFresh, hBreaker]
    have hChanges : BreakerEntry.changes
        ⟨clock, .acquired (some fresh), session.breaker, probing⟩ = false := by
      simp [BreakerEntry.changes, BreakerEntry.opens, CircuitBreaker.opens,
        CircuitBreaker.closes, hBreaker, hOpened]
    obtain ⟨hNew, hStamp⟩ := inv.issue_facts hFresh
    have hProbe := inv.probe opened hOpened
    rw [hProbing] at hProbe
    rw [hSame]
    exact {
      limit := inv.limit
      seconds := inv.seconds
      issued := by
        intro issue h
        rcases List.mem_cons.mp h with rfl | h
        · simp [hFresh]
        · exact Nat.lt_succ_of_lt (inv.issued issue h)
      distinct := List.nodup_cons.mpr ⟨hNew, inv.distinct⟩
      ticket_le := by
        intro issue h
        rcases List.mem_cons.mp h with rfl | h
        · exact Nat.le_refl _
        · exact inv.ticket_le issue h
      stale := by
        intro issue h hLast
        rw [lastChange_cons_of_not_changes hChanges] at hLast
        rcases List.mem_cons.mp h with rfl | h
        · exact absurd hLast hStamp
        · exact inv.stale issue h hLast
      closed := fun h => by simp [hBreaker, hOpened] at h
      probe := by
        intro again hAgain
        have hZero : session.outstanding.filter (·.ticket = session.breaker.epoch) = [] :=
          List.eq_nil_of_length_eq_zero (by simpa [current] using hProbe)
        simp [current, hBreaker, hFresh, hZero]
      probe_issue := by
        intro again hAgain issue hIssue
        have hOnly : issue = fresh := by
          rcases List.mem_cons.mp (List.mem_of_mem_filter hIssue) with h | h
          · exact h
          · have hEpoch : issue.ticket = session.breaker.epoch := by
              simpa [hBreaker] using (List.mem_filter.mp hIssue).2
            have : issue ∈ session.current := by simp [current, h, hEpoch]
            simp [List.eq_nil_of_length_eq_zero (by simpa using hProbe)] at this
        subst hOnly
        exact ⟨_, List.mem_cons_self .., rfl, hAgain⟩
      cooled := by
        intro entry hEntry hOpens
        rcases List.mem_cons.mp hEntry with rfl | hEntry
        · simp [not_opens_of_not_changes hChanges] at hOpens
        · have h := inv.cooled_of_le hClock hEntry hOpens
          have hWait : opened + settings.seconds ≤ clock := by
            have := inv.seconds ▸ hCool
            linarith
          simp only [hOpened] at h
          simp only [hBreaker, hOpened]
          exact ⟨h.1, fun _ => hWait⟩
      opened_le := fun again hAgain => by
        simp only [hBreaker] at hAgain
        exact (inv.opened_le again hAgain).trans hClock }

/-- The state after a report, given what the breaker became. -/
theorem report_eq {clock : ℚ} {issue : Issue} {success : Bool} {after : CircuitBreaker}
    (h : session.breaker.finish clock issue.ticket success = after) :
    session.report clock issue success =
      { breaker := after
        now := clock
        outstanding := session.outstanding.erase issue
        log := ⟨clock, .finished issue success, session.breaker, after⟩ :: session.log } := by
  simp [report, h]

theorem report_eq_of_current {clock : ℚ} {issue : Issue} {success : Bool}
    {after : CircuitBreaker} (hTicket : issue.ticket = session.breaker.epoch)
    (h : session.breaker.finish clock session.breaker.epoch success = after) :
    session.report clock issue success =
      { breaker := after
        now := clock
        outstanding := session.outstanding.erase issue
        log := ⟨clock, .finished issue success, session.breaker, after⟩ :: session.log } :=
  report_eq (by rw [hTicket]; exact h)

/-- Outside a probe, a current ticket can only be outstanding while the breaker is closed. -/
theorem Invariant.closed_of_current {issue : Issue} (inv : Invariant settings session)
    (hIssue : issue ∈ session.outstanding) (hTicket : issue.ticket = session.breaker.epoch)
    (hProbing : session.breaker.probing = false) : session.breaker.opened = none := by
  by_contra hOpen
  obtain ⟨opened, hOpened⟩ := Option.ne_none_iff_exists'.mp hOpen
  have hProbe := inv.probe opened hOpened
  have hMem : issue ∈ session.current := by simp [current, hIssue, hTicket]
  have hPositive := List.length_pos_of_mem hMem
  rw [hProbing] at hProbe
  simp only [Bool.false_eq_true, ↓reduceIte] at hProbe
  omega

/-- A report that leaves the epoch, the opening time and the probing flag alone keeps
the invariant, once its failure count and its current tickets are accounted for. -/
theorem Invariant.report_same {clock : ℚ} {issue : Issue} {success : Bool}
    {after : CircuitBreaker} (inv : Invariant settings session)
    (hClock : session.now ≤ clock)
    (hLimit : after.limit = session.breaker.limit)
    (hSeconds : after.seconds = session.breaker.seconds)
    (hEpoch : after.epoch = session.breaker.epoch)
    (hOpened : after.opened = session.breaker.opened)
    (hProbing : after.probing = session.breaker.probing)
    (hFailures : session.breaker.opened = none →
      after.failures = failuresSinceSuccess
        (⟨clock, .finished issue success, session.breaker, after⟩ :: session.log) ∧
      after.failures < session.breaker.limit)
    (hProbe : session.breaker.opened ≠ none → issue.ticket ≠ session.breaker.epoch) :
    Invariant settings
      { breaker := after
        now := clock
        outstanding := session.outstanding.erase issue
        log := ⟨clock, .finished issue success, session.breaker, after⟩ :: session.log } := by
  have hChanges : BreakerEntry.changes
      ⟨clock, .finished issue success, session.breaker, after⟩ = false :=
    not_changes_of_same hOpened hProbing
  exact {
    limit := hLimit.trans inv.limit
    seconds := hSeconds.trans inv.seconds
    issued := fun i h => Nat.lt_succ_of_lt (inv.issued i (List.mem_of_mem_erase h))
    distinct := inv.distinct.erase issue
    ticket_le := fun i h => hEpoch ▸ inv.ticket_le i (List.mem_of_mem_erase h)
    stale := by
      intro i h hLast
      rw [lastChange_cons_of_not_changes hChanges] at hLast
      exact hEpoch ▸ inv.stale i (List.mem_of_mem_erase h) hLast
    closed := by
      intro h
      have hBefore : session.breaker.opened = none := hOpened.symm.trans h
      obtain ⟨hCount, hBelow⟩ := hFailures hBefore
      exact ⟨hProbing.trans (inv.closed hBefore).1, hCount, hLimit ▸ hBelow⟩
    probe := by
      intro opened h
      have hBefore : session.breaker.opened = some opened := hOpened.symm.trans h
      have hTicket := hProbe (by simp [hBefore])
      have hKeep : (session.outstanding.erase issue).filter
          (·.ticket = session.breaker.epoch) = session.current := by
        rw [← List.erase_filter, List.erase_of_not_mem (by simp [hTicket]), current]
      simp only [current, hEpoch, hProbing, hKeep]
      exact inv.probe opened hBefore
    probe_issue := by
      intro opened h i hCurrent
      have hBefore : session.breaker.opened = some opened := hOpened.symm.trans h
      have hOld : i ∈ session.current := by
        simp only [current, List.mem_filter, hEpoch] at hCurrent ⊢
        exact ⟨List.mem_of_mem_erase hCurrent.1, hCurrent.2⟩
      obtain ⟨entry, hEntry, hFacts⟩ := inv.probe_issue opened hBefore i hOld
      exact ⟨entry, List.mem_cons_of_mem _ hEntry, hFacts⟩
    cooled := by
      intro entry hEntry hOpens
      rcases List.mem_cons.mp hEntry with rfl | hEntry
      · simp [not_opens_of_not_changes hChanges] at hOpens
      · simpa only [hOpened, hProbing] using inv.cooled_of_le hClock hEntry hOpens
    opened_le := fun opened h => (inv.opened_le opened (hOpened.symm.trans h)).trans hClock }

/-- After an epoch change every outstanding issue is stale, whenever it was issued. -/
theorem Invariant.report_next_epoch {clock : ℚ} {issue : Issue} {success : Bool}
    {after : CircuitBreaker} (inv : Invariant settings session)
    (hLimit : after.limit = session.breaker.limit)
    (hSeconds : after.seconds = session.breaker.seconds)
    (hEpoch : after.epoch = session.breaker.epoch + 1)
    (hProbing : after.probing = false)
    (hClosed : after.opened = none → after.failures = failuresSinceSuccess
        (⟨clock, .finished issue success, session.breaker, after⟩ :: session.log) ∧
      after.failures < session.breaker.limit)
    (hCooled : ∀ entry ∈ (⟨clock, .finished issue success, session.breaker, after⟩ ::
        session.log : List BreakerEntry), entry.opens = true →
      match after.opened with
      | none => entry.clock + settings.seconds ≤ clock
      | some opened => entry.clock ≤ opened)
    (hOpened : ∀ opened, after.opened = some opened → opened ≤ clock) :
    Invariant settings
      { breaker := after
        now := clock
        outstanding := session.outstanding.erase issue
        log := ⟨clock, .finished issue success, session.breaker, after⟩ :: session.log } := by
  have hOlder : ∀ i ∈ session.outstanding.erase issue, i.ticket < after.epoch := by
    intro i h
    have := inv.ticket_le i (List.mem_of_mem_erase h)
    omega
  exact {
    limit := hLimit.trans inv.limit
    seconds := hSeconds.trans inv.seconds
    issued := fun i h => Nat.lt_succ_of_lt (inv.issued i (List.mem_of_mem_erase h))
    distinct := inv.distinct.erase issue
    ticket_le := fun i h => (hOlder i h).le
    stale := fun i h _ => hOlder i h
    closed := fun h => ⟨hProbing, (hClosed h).1, hLimit ▸ (hClosed h).2⟩
    probe := by
      intro opened _
      have hNone : (session.outstanding.erase issue).filter (·.ticket = after.epoch) = [] := by
        rw [List.filter_eq_nil_iff]
        intro i h
        simpa using (hOlder i h).ne
      simp [current, hNone, hProbing]
    probe_issue := by
      intro opened _ i hCurrent
      obtain ⟨hMem, hTicket⟩ := List.mem_filter.mp hCurrent
      exact absurd (by simpa using hTicket) (hOlder i hMem).ne
    cooled := by
      intro entry hEntry hOpens
      have h := hCooled entry hEntry hOpens
      cases hAfter : after.opened with
      | none => simpa [hAfter] using h
      | some opened => exact ⟨by simpa [hAfter] using h, by simp [hProbing]⟩
    opened_le := hOpened }

theorem report_invariant {clock : ℚ} {issue : Issue} {success : Bool}
    (inv : Invariant settings session) (hClock : session.now ≤ clock)
    (hIssue : issue ∈ session.outstanding) :
    Invariant settings (session.report clock issue success) := by
  by_cases hTicket : issue.ticket = session.breaker.epoch
  swap
  · -- A stale ticket: the breaker does not look at the result.
    rw [report_eq (CircuitBreaker.finish_stale clock success hTicket)]
    refine inv.report_same hClock rfl rfl rfl rfl rfl (fun h => ?_) (fun _ => hTicket)
    obtain ⟨_, hCount, hBelow⟩ := inv.closed h
    exact ⟨by simpa [failuresSinceSuccess, hTicket] using hCount, hBelow⟩
  rcases session.breaker.finish_current clock success with
    ⟨rfl, hProbing, hFinish⟩ | ⟨rfl, hProbing, hFinish⟩ | ⟨rfl, hReach, hFinish⟩ |
    ⟨rfl, hProbing, hBelow, hFinish⟩
  · -- The probe succeeded: the breaker closes with a fresh epoch and no failures.
    rw [report_eq_of_current hTicket hFinish]
    refine inv.report_next_epoch rfl rfl rfl rfl ?_ ?_ (by simp)
    · intro _
      refine ⟨by simp [failuresSinceSuccess, hTicket], ?_⟩
      have := settings.failures_ge
      have := inv.limit
      simp only
      omega
    · intro entry hEntry hOpens
      rcases List.mem_cons.mp hEntry with rfl | hEntry
      · simp [BreakerEntry.opens, CircuitBreaker.opens] at hOpens
      · have h := inv.cooled_of_le hClock hEntry hOpens
        cases hOpened : session.breaker.opened with
        | none => simp [(inv.closed hOpened).1] at hProbing
        | some opened =>
            simp only [hOpened] at h
            have := h.2 hProbing
            have := h.1
            simp only
            linarith
  · -- Success outside a probe only clears the counter.
    rw [report_eq_of_current hTicket hFinish]
    have hClosed := inv.closed_of_current hIssue hTicket hProbing
    refine inv.report_same hClock rfl rfl rfl rfl rfl (fun _ => ?_) (fun h => absurd hClosed h)
    refine ⟨by simp [failuresSinceSuccess, hTicket], ?_⟩
    have := settings.failures_ge
    have := inv.limit
    simp only
    omega
  · -- A failed probe, or the failure that reaches the limit: the breaker opens now.
    rw [report_eq_of_current hTicket hFinish]
    refine inv.report_next_epoch rfl rfl rfl rfl (by simp) ?_ ?_
    · intro entry hEntry hOpens
      rcases List.mem_cons.mp hEntry with rfl | hEntry
      · exact le_refl clock
      · have h := inv.cooled_of_le hClock hEntry hOpens
        cases hOpened : session.breaker.opened with
        | none =>
            simp only [hOpened] at h
            have := settings.seconds_gt
            simp only
            linarith
        | some opened =>
            simp only [hOpened] at h
            have := inv.opened_le opened hOpened
            simp only
            linarith [h.1]
    · intro opened h
      simp only [Option.some.injEq] at h
      exact h ▸ le_refl clock
  · -- One more failure below the limit.
    rw [report_eq_of_current hTicket hFinish]
    have hClosed := inv.closed_of_current hIssue hTicket hProbing
    refine inv.report_same hClock rfl rfl rfl rfl rfl (fun h => ?_) (fun h => absurd hClosed h)
    exact ⟨by simp [failuresSinceSuccess, hTicket, (inv.closed h).2.1], hBelow⟩

theorem step_invariant {next : BreakerSession} {action : ℚ × BreakerCall}
    (inv : Invariant settings session) (h : session.step action = some next) :
    Invariant settings next := by
  obtain ⟨hClock, rfl | ⟨issue, hIssue, success, rfl⟩⟩ := step_cases h
  · exact request_invariant inv hClock
  · exact report_invariant inv hClock hIssue

/-- Every session that calls on a fresh breaker can reach satisfies the invariant. -/
theorem run_invariant {actions : List (ℚ × BreakerCall)} {now : ℚ}
    (h : Transition.run step actions (start settings now) = some session) :
    Invariant settings session :=
  Transition.run_invariant step (fun _ _ _ inv hStep => step_invariant inv hStep)
    (start_invariant settings now) h

/-- From the closed state only a current failure can open, and only the one that
completes the configured number since the last current success. -/
theorem Invariant.opens_iff {clock : ℚ} {issue : Issue} {success : Bool}
    (inv : Invariant settings session) (hClosed : session.breaker.opened = none) :
    (session.report clock issue success).breaker.opened.isSome ↔
      issue.ticket = session.breaker.epoch ∧ success = false ∧
        failuresSinceSuccess (session.report clock issue success).log = settings.failures := by
  obtain ⟨hProbing, hCount, hBelow⟩ := inv.closed hClosed
  have hLimit := inv.limit
  by_cases hTicket : issue.ticket = session.breaker.epoch
  swap
  · rw [report_eq (CircuitBreaker.finish_stale clock success hTicket)]
    simp [hClosed, hTicket]
  rcases session.breaker.finish_current clock success with
    ⟨rfl, hProbe, hFinish⟩ | ⟨rfl, _, hFinish⟩ | ⟨rfl, hReach, hFinish⟩ |
    ⟨rfl, _, hNext, hFinish⟩
  · simp [hProbing] at hProbe
  · rw [report_eq_of_current hTicket hFinish]
    simp [hClosed]
  · rw [report_eq_of_current hTicket hFinish]
    have hLast : session.breaker.limit ≤ session.breaker.failures + 1 := by
      simpa [hProbing] using hReach
    simp only [Option.isSome_some, hTicket, true_and, true_iff, failuresSinceSuccess,
      ne_eq, not_true_eq_false, ↓reduceIte, Bool.false_eq_true]
    omega
  · rw [report_eq_of_current hTicket hFinish]
    simp only [hClosed, Option.isSome_none, Bool.false_eq_true, hTicket, true_and, false_iff,
      failuresSinceSuccess, ne_eq, not_true_eq_false, ↓reduceIte]
    omega

/-- A report that closes the breaker is the success of the probe this open period issued. -/
theorem Invariant.closes_only {clock opened : ℚ} {issue : Issue} {success : Bool}
    (inv : Invariant settings session) (hIssue : issue ∈ session.outstanding)
    (hOpened : session.breaker.opened = some opened)
    (hCloses : (session.report clock issue success).breaker.opened = none) :
    success = true ∧ lastChange session.log ≤ issue.stamp ∧
      ∃ entry ∈ session.log, entry.event = .acquired (some issue) ∧
        entry.before.opened = some opened := by
  by_cases hTicket : issue.ticket = session.breaker.epoch
  swap
  · rw [report_eq (CircuitBreaker.finish_stale clock success hTicket)] at hCloses
    simp [hOpened] at hCloses
  have hSince : lastChange session.log ≤ issue.stamp := by
    by_contra hBefore
    have := inv.stale issue hIssue (not_le.mp hBefore)
    omega
  have hProbe := inv.probe_issue opened hOpened issue (by simp [current, hIssue, hTicket])
  rcases session.breaker.finish_current clock success with
    ⟨rfl, _, _⟩ | ⟨rfl, _, _⟩ | ⟨rfl, _, hFinish⟩ | ⟨rfl, _, _, hFinish⟩
  · exact ⟨rfl, hSince, hProbe⟩
  · exact ⟨rfl, hSince, hProbe⟩
  · rw [report_eq_of_current hTicket hFinish] at hCloses
    simp at hCloses
  · rw [report_eq_of_current hTicket hFinish] at hCloses
    simp [hOpened] at hCloses

/-- Within the cooldown of any opening so far, every acquire is rejected. -/
theorem Invariant.rejects_until_cooled {clock : ℚ} (inv : Invariant settings session)
    {entry : BreakerEntry} (hEntry : entry ∈ session.log) (hOpens : entry.opens = true)
    (hClock : session.now ≤ clock) (hEarly : clock < entry.clock + settings.seconds) :
    (session.breaker.acquire clock).1 = none := by
  have hCooled := inv.cooled_of_le hClock hEntry hOpens
  have hSeconds := inv.seconds
  rcases session.breaker.acquire_cases clock with
    ⟨_, _, _, hAcquire⟩ | ⟨hOpened, _⟩ | ⟨opened, hOpened, hCool, _, _⟩
  · rw [hAcquire]
  · simp only [hOpened] at hCooled
    linarith
  · simp only [hOpened] at hCooled
    linarith [hCooled.1]

/-- The breaker's protocol in every session reached by any calls at clock readings
that do not go back: one probe at a time, late results without effect, no ticket
before the cooldown, opening exactly at the configured run of failures, and closing
only by the probe of the current open period. -/
theorem breaker_protocol (settings : BreakerSettings) (now : ℚ) (actions : List (ℚ × BreakerCall))
    (session : BreakerSession)
    (h : Transition.run step actions (start settings now) = some session) :
    (∀ opened, session.breaker.opened = some opened →
      session.current.length ≤ 1 ∧ (session.current ≠ [] ↔ session.breaker.probing = true)) ∧
    (∀ issue ∈ session.outstanding, issue.stamp < lastChange session.log →
      ∀ clock success, session.breaker.finish clock issue.ticket success = session.breaker) ∧
    (∀ entry ∈ session.log, entry.opens = true → ∀ clock, session.now ≤ clock →
      clock < entry.clock + settings.seconds → (session.breaker.acquire clock).1 = none) ∧
    (session.breaker.opened = none → ∀ clock,
      (session.request clock).breaker.opened = none ∧
      ∀ issue ∈ session.outstanding, ∀ success,
        ((session.report clock issue success).breaker.opened.isSome ↔
          issue.ticket = session.breaker.epoch ∧ success = false ∧
            failuresSinceSuccess (session.report clock issue success).log =
              settings.failures)) ∧
    (∀ opened, session.breaker.opened = some opened → ∀ clock,
      (session.request clock).breaker.opened = some opened ∧
      ∀ issue ∈ session.outstanding, ∀ success,
        (session.report clock issue success).breaker.opened = none →
          success = true ∧ lastChange session.log ≤ issue.stamp ∧
            ∃ entry ∈ session.log, entry.event = .acquired (some issue) ∧
              entry.before.opened = some opened) := by
  have inv := run_invariant h
  refine ⟨?_, ?_, ?_, ?_, ?_⟩
  · intro opened hOpened
    have hProbe := inv.probe opened hOpened
    cases hProbing : session.breaker.probing <;> rw [hProbing] at hProbe
    · have hNone := List.eq_nil_of_length_eq_zero (by simpa using hProbe)
      simp [hNone]
    · simp only [↓reduceIte] at hProbe
      refine ⟨hProbe.le, by simp, fun _ hNone => ?_⟩
      rw [hNone, List.length_nil] at hProbe
      omega
  · intro issue hIssue hStamp clock success
    exact CircuitBreaker.finish_stale clock success (inv.stale issue hIssue hStamp).ne
  · intro entry hEntry hOpens clock hClock hEarly
    exact inv.rejects_until_cooled hEntry hOpens hClock hEarly
  · intro hClosed clock
    exact ⟨by simp [request, CircuitBreaker.acquire, hClosed],
      fun issue _ success => inv.opens_iff hClosed⟩
  · intro opened hOpened clock
    refine ⟨?_, fun issue hIssue success hCloses => inv.closes_only hIssue hOpened hCloses⟩
    simp only [request, CircuitBreaker.acquire, hOpened]
    split_ifs
    · exact hOpened
    · rfl

/-- Three failures at the default settings, while a fourth call is still in flight. -/
def threeFailures : List (ℚ × BreakerCall) :=
  [(0, .acquire), (0, .acquire), (0, .acquire), (0, .acquire),
   (1, .finish 0 false), (1, .finish 1 false), (2, .finish 2 false)]

/-- The fourth call cannot settle anything, and second 31 is still too early for a probe. -/
theorem breaker_protocol_threeFailures :
    ∃ session, Transition.run step threeFailures
        (start ⟨3, 30, by decide, by decide⟩ 0) = some session ∧
      (session.breaker.acquire 31).1 = none ∧
      session.breaker.finish 3 0 true = session.breaker := by
  refine ⟨_, rfl, ?_⟩
  have hRun := breaker_protocol ⟨3, 30, by decide, by decide⟩ 0 threeFailures _ rfl
  refine ⟨?_, hRun.2.1 ⟨0, 3⟩ (by decide) (by decide) 3 true⟩
  refine hRun.2.2.1 _ (List.mem_cons_self ..) (by decide) 31 ?_ ?_
  · show (2 : ℚ) ≤ 31
    norm_num
  · show (31 : ℚ) < 2 + 30
    norm_num

end DocInsight.Query.BreakerSession
