import DocInsight.Delivery.Knowledge

/-! Every call that meets its guard, every event and every crash keep the stores sound. -/
namespace DocInsight.Delivery

open DocInsight.Contracts DocInsight.Worker Interaction Table

section Queued
variable {setting : Setting} {agent : Nat} {state middle after : DeliveryState} {choice : Choice}

theorem Queued.addEntry (queued : Queued state) (fields : Fields) :
    Queued (state.addEntry fields) := by
  refine ⟨?_, ?_, queued.pending, queued.settled⟩
  · show (state.entries ++ [_]).map StreamMessage.id = List.range (state.entries ++ [_]).length
    rw [List.map_append, queued.entryIds, List.length_append, List.length_singleton,
      List.range_succ]
    rfl
  · show state.delivered ≤ (state.entries ++ [_]).length
    rw [List.length_append]
    exact queued.delivered.trans (Nat.le_add_right _ _)

/-- The entry at a place has the number of the place. -/
theorem Queued.id_eq (queued : Queued state) {index : Nat} (hIndex : index < state.entries.length) :
    state.entries[index].id = index := by
  have hSame := congrArg (fun ids => ids[index]?) queued.entryIds
  simpa [hIndex] using hSame

/-- What is read next is numbered up to where the reading ends. -/
theorem Queued.id_lt_of_read (queued : Queued state) {batch : Nat} {message : StreamMessage}
    (hMessage : message ∈ (state.entries.drop state.delivered).take batch) :
    message.id < state.delivered + ((state.entries.drop state.delivered).take batch).length := by
  obtain ⟨index, hIndex, hSame⟩ := List.mem_iff_getElem.mp hMessage
  rw [List.getElem_take, List.getElem_drop] at hSame
  rw [← hSame, queued.id_eq]
  exact Nat.add_lt_add_left hIndex _

theorem effect_queued {request : Call} {own : Except Failure (Response request)}
    (queued : Queued state) (h : effect setting agent state choice request = some (own, middle)) :
    Queued middle := by
  cases request with
  | stream command =>
      simp only [effect, Option.map_eq_some_iff] at h
      obtain ⟨⟨answer, reached⟩, hEffect, hAfter⟩ := h
      cases hAfter
      cases command with
      | readGroup =>
          cases hEffect
          refine ⟨queued.entryIds, ?_, ?_, fun other id h =>
            (queued.settled other id h).trans_le (Nat.le_add_right _ _)⟩
          · have hLength := List.length_take_le' setting.batch (state.entries.drop state.delivered)
            rw [List.length_drop] at hLength
            have hDelivered := queued.delivered
            simp only
            omega
          · intro entry hEntry
            rcases List.mem_append.mp hEntry with hOld | hNew
            · exact (queued.pending entry hOld).trans_le (Nat.le_add_right _ _)
            · obtain ⟨message, hMessage, rfl⟩ := List.mem_map.mp hNew
              exact queued.id_lt_of_read hMessage
      | autoClaim cursor =>
          simp only [streamEffect] at hEffect
          split_ifs at hEffect
          cases hEffect
          refine ⟨queued.entryIds, queued.delivered, ?_, queued.settled⟩
          intro entry hEntry
          obtain ⟨old, hOld, rfl⟩ := mem_updateWhere.mp hEntry
          have := queued.pending old hOld
          split_ifs
          · exact this
          · exact this
      | acknowledge id =>
          simp only [streamEffect] at hEffect
          split at hEffect
          · cases hEffect
            exact ⟨queued.entryIds, queued.delivered,
              fun entry hEntry => queued.pending entry (List.mem_filter.mp hEntry).1,
              queued.settled⟩
          · cases hEffect
            exact queued
      | addDeadLetter fields =>
          cases hEffect
          exact ⟨queued.entryIds, queued.delivered, queued.pending, queued.settled⟩
      | createGroup =>
          cases hEffect
          exact queued
      | heartbeat =>
          cases hEffect
          exact queued
      | pending id =>
          cases hEffect
          exact queued
  | publish event =>
      cases h
      have hAdded := queued.addEntry (event.streamFields setting.codec)
      exact ⟨hAdded.entryIds, hAdded.delivered, hAdded.pending, hAdded.settled⟩
  | markStatus tenantId id status error =>
      simp only [effect] at h
      split at h
      · cases h
        exact queued
      · cases h
        exact ⟨queued.entryIds, queued.delivered, queued.pending, queued.settled⟩
  | upsertDocument tenantId filename document =>
      rcases upsertEffect_cases h with ⟨-, rfl⟩ | ⟨record, row, -, -, -, rfl⟩
      · exact queued
      · exact ⟨queued.entryIds, queued.delivered, queued.pending, queued.settled⟩
  | _ =>
      cases h
      exact ⟨queued.entryIds, queued.delivered, queued.pending, queued.settled⟩

/-- An agent that settles its attempt has had its entry delivered. -/
theorem note_queued {request : Call} (queued : Queued state)
    (hEntry : ∀ id, (state.attempts agent).entry = some id →
      (∃ tenantId id, request = .getDocument tenantId id) ∨
        (∃ tenantId id status error, request = .markStatus tenantId id status error) →
      id < state.delivered)
    (answer : Except Failure (Response request)) :
    Queued (note agent request answer state) := by
  have hSet (attempt : Attempt) (history : List Logged)
      (hAttempt : ∀ id, attempt = ⟨some id, true⟩ → id < state.delivered) :
      Queued (({ state with history } : DeliveryState).setAttempt agent attempt) := by
    refine ⟨queued.entryIds, queued.delivered, queued.pending, fun other id hSettled => ?_⟩
    simp only [DeliveryState.setAttempt] at hSettled
    split_ifs at hSettled
    · exact hAttempt id hSettled
    · exact queued.settled other id hSettled
  unfold note
  split
  · exact hSet _ state.history fun id h => by cases h
  · exact hSet _ state.history fun id h => by cases h
  · exact hSet _ state.history fun id h => by cases h
  · rename_i tenantId id found
    refine hSet _ _ fun other h => hEntry other ?_ (Or.inl ⟨tenantId, id, rfl⟩)
    exact congrArg Attempt.entry h
  · exact ⟨queued.entryIds, queued.delivered, queued.pending, queued.settled⟩
  · split_ifs
    · rename_i tenantId id status error _ _
      refine hSet _ state.history fun other h => hEntry other ?_
        (Or.inr ⟨tenantId, id, status, error, rfl⟩)
      exact congrArg Attempt.entry h
    · exact queued
  · exact queued

end Queued

section Locked
variable {setting : Setting} {agent : Nat} {state middle after : DeliveryState} {choice : Choice}

/-- What a relay does not touch stays locked as it was. -/
theorem Locked.frame (locked : Locked state)
    (hOutbox : after.database.outbox = state.database.outbox) (hLocks : after.locks = state.locks)
    (hTransactions : after.transactions = state.transactions) : Locked after := by
  constructor
  · rw [hLocks]
    exact locked.exclusive
  · rw [hLocks, hOutbox]
    exact locked.unpublished
  · rw [hLocks, hTransactions]
    exact locked.held
  · rw [hTransactions]
    exact locked.marked

/-- A relay that ends its transaction holds nothing, and others hold what they held. -/
theorem Locked.endTransaction (locked : Locked state) (agent : Nat) :
    Locked (state.endTransaction agent) := by
  refine ⟨?_, ?_, ?_, ?_⟩
  · intro first second id hFirst hSecond
    exact locked.exclusive first second id (List.mem_filter.mp hFirst).1
      (List.mem_filter.mp hSecond).1
  · intro other id hLock
    exact locked.unpublished other id (List.mem_filter.mp hLock).1
  · intro other id hPublished
    by_cases hOther : other = agent
    · simp [DeliveryState.endTransaction, DeliveryState.setTransaction, hOther] at hPublished
    · rw [mem_locks_end hOther]
      simp only [DeliveryState.endTransaction, DeliveryState.setTransaction, if_neg hOther]
        at hPublished
      exact locked.held other id hPublished
  · intro other
    by_cases hOther : other = agent
    · simp [DeliveryState.endTransaction, DeliveryState.setTransaction, hOther]
    · simp only [DeliveryState.endTransaction, DeliveryState.setTransaction, if_neg hOther]
      exact locked.marked other

/-- A transaction changed by its own relay, which holds what it has published. -/
theorem Locked.setTransaction (locked : Locked state) {transaction : RelayTransaction}
    (hHeld : ∀ id ∈ transaction.published, (agent, id) ∈ state.locks)
    (hMarked : transaction.marked ⊆ transaction.published) :
    Locked (state.setTransaction agent transaction) := by
  refine ⟨locked.exclusive, locked.unpublished, ?_, ?_⟩
  · intro other id hPublished
    simp only [DeliveryState.setTransaction] at hPublished
    split_ifs at hPublished with hOther
    · rw [hOther]
      exact hHeld id hPublished
    · exact locked.held other id hPublished
  · intro other
    simp only [DeliveryState.setTransaction]
    split_ifs
    · exact hMarked
    · exact locked.marked other

/-- What a relay reads as pending is not published, and no other relay holds it. -/
theorem mem_pendingRows {tenantId : String} {batch : Nat} {row : OutboxRow}
    (h : row ∈ state.pendingRows agent tenantId batch) :
    row ∈ state.database.outbox ∧ row.tenantId = tenantId ∧ row.publishedAt = none ∧
      ∀ other, (other, row.id) ∈ state.locks → other = agent := by
  have hFree := (List.perm_insertionSort _ _).subset (List.mem_of_mem_take h)
  obtain ⟨hRow, hCondition⟩ := List.mem_filter.mp hFree
  obtain ⟨hTenant, hUnpublished, hLocks⟩ := of_decide_eq_true hCondition
  refine ⟨hRow, hTenant, hUnpublished, fun other hLock => ?_⟩
  by_contra hOther
  exact hLocks (List.any_eq_true.mpr ⟨(other, row.id), hLock, by simpa using hOther⟩)

theorem effect_locked {request : Call} {own : Except Failure (Response request)}
    (locked : Locked state) (outboxIds : Keyed OutboxRow.id state.database.outbox)
    (events : ∀ row ∈ state.database.outbox, row.payload.eventId = row.id)
    (guard : Guard setting agent state request)
    (h : effect setting agent state choice request = some (own, middle)) : Locked middle := by
  cases request with
  | stream command =>
      simp only [effect, Option.map_eq_some_iff] at h
      obtain ⟨⟨answer, after⟩, hEffect, hAfter⟩ := h
      cases hAfter
      obtain ⟨delivered, pending, deadLetters, history, rfl, -, -⟩ := streamEffect_cases hEffect
      exact locked.frame rfl rfl rfl
  | markStatus tenantId id status error =>
      simp only [effect] at h
      split at h
      · cases h
        exact locked
      · cases h
        exact locked.frame rfl rfl rfl
  | upsertDocument tenantId filename document =>
      rcases upsertEffect_cases h with ⟨-, rfl⟩ | ⟨record, row, -, -, -, rfl⟩
      · exact locked
      · exact locked.frame (Database.upsertDocument_outbox _ _ _ _) rfl rfl
  | begin tenantId =>
      cases h
      have hEnded : Locked (state.abandon agent) :=
        (locked.endTransaction agent).frame rfl rfl rfl
      exact hEnded.setTransaction (fun id hId => by cases hId) (List.nil_subset _)
  | selectPending tenantId batch =>
      cases h
      have hNew {other : Nat} {id : UUID}
          (hLock : (other, id) ∈
            (state.pendingRows agent tenantId batch).map fun row => (agent, row.id)) :
          other = agent ∧ ∃ row ∈ state.database.outbox, row.id = id ∧ row.publishedAt = none ∧
            ∀ holder, (holder, id) ∈ state.locks → holder = agent := by
        obtain ⟨row, hRow, hSame⟩ := List.mem_map.mp hLock
        cases hSame
        obtain ⟨hMem, -, hUnpublished, hHolder⟩ := mem_pendingRows hRow
        exact ⟨rfl, row, hMem, rfl, hUnpublished, hHolder⟩
      refine ⟨?_, ?_, fun other id hId => List.mem_append_left _ (locked.held other id hId),
        locked.marked⟩
      · intro first second id hFirst hSecond
        rcases List.mem_append.mp hFirst with hFirst | hFirst
        · rcases List.mem_append.mp hSecond with hSecond | hSecond
          · exact locked.exclusive first second id hFirst hSecond
          · obtain ⟨hSame, row, -, -, -, hHolder⟩ := hNew hSecond
            rw [hHolder first hFirst, hSame]
        · obtain ⟨hSame, row, -, -, -, hHolder⟩ := hNew hFirst
          rcases List.mem_append.mp hSecond with hSecond | hSecond
          · rw [hHolder second hSecond, hSame]
          · rw [hSame, (hNew hSecond).1]
      · intro other id hLock row hRow hId
        rcases List.mem_append.mp hLock with hLock | hLock
        · exact locked.unpublished other id hLock row hRow hId
        · obtain ⟨-, found, hFound, hFoundId, hUnpublished, -⟩ := hNew hLock
          rw [outboxIds.eq_of_key hRow hFound (hId.trans hFoundId.symm)]
          exact hUnpublished
  | publish event =>
      cases h
      obtain ⟨row, hRow, -, hEvent, hLock, -⟩ := guard
      have hId : event.eventId = row.id := by
        rw [hEvent]
        exact events row hRow
      have hSame : Locked ((state.addEntry (event.streamFields setting.codec)).log
          (.relayed agent (state.transactions agent).tenantId event state.entries.length)) :=
        locked.frame rfl rfl rfl
      apply hSame.setTransaction
      · intro id hPublished
        rcases List.mem_append.mp hPublished with hOld | hNew
        · exact locked.held agent id hOld
        · rw [List.mem_singleton.mp hNew, hId]
          exact hLock
      · exact fun id hMarked => List.mem_append_left _ (locked.marked agent hMarked)
  | setPublished tenantId id =>
      cases h
      refine locked.setTransaction (fun other hOther => locked.held agent other hOther) ?_
      intro other hOther
      simp only at hOther
      split_ifs at hOther
      · rcases List.mem_append.mp hOther with hOld | hNew
        · exact locked.marked agent hOld
        · rw [List.mem_singleton.mp hNew]
          exact guard
      · exact locked.marked agent hOther
  | commit =>
      cases h
      -- a row that another relay holds is none of those that are marked now
      have hEnded := locked.endTransaction agent
      refine ⟨hEnded.exclusive, ?_, hEnded.held, hEnded.marked⟩
      intro other id hLock row hRow hId
      obtain ⟨hHeld, hOther⟩ := List.mem_filter.mp hLock
      obtain ⟨old, hOld, rfl⟩ := mem_updateWhere.mp hRow
      split_ifs at hId ⊢ with hMarked
      · have hMine := locked.held agent old.id
          (locked.marked agent (List.contains_iff_mem.mp hMarked))
        have hHolder : other = agent :=
          locked.exclusive other agent id hHeld (by rwa [← hId])
        simp [hHolder] at hOther
      · exact locked.unpublished other id hHeld old hOld hId
  | rollback =>
      cases h
      exact (locked.endTransaction agent).frame rfl rfl rfl
  | _ =>
      cases h
      exact locked.frame rfl rfl rfl

end Locked

section Relayed
variable {setting : Setting} {codec : Codec} {agent : Nat} {state middle after : DeliveryState}
  {choice : Choice}

/-- Whether a relay's work is logged. -/
def Logged.isRelay : Logged → Bool
  | .relayed _ _ _ _ | .abandoned _ _ => true
  | _ => false

theorem relayCount_cons {logged : Logged} (h : logged.isRelay = false) (id : UUID)
    (history : List Logged) : relayCount id (logged :: history) = relayCount id history := by
  cases logged <;> simp_all [relayCount, Logged.isRelay]

theorem abandonCount_cons {logged : Logged} (h : logged.isRelay = false) (id : UUID)
    (history : List Logged) : abandonCount id (logged :: history) = abandonCount id history := by
  cases logged <;> simp_all [abandonCount, Logged.isRelay]

@[simp] theorem relayCount_relayed (id : UUID) (agent : Nat) (tenantId : String)
    (event : DocumentUploaded) (number : Nat) (history : List Logged) :
    relayCount id (.relayed agent tenantId event number :: history) =
      relayCount id history + if event.eventId = id then 1 else 0 := by
  simp [relayCount, List.countP_cons]

@[simp] theorem abandonCount_relayed (id : UUID) (agent : Nat) (tenantId : String)
    (event : DocumentUploaded) (number : Nat) (history : List Logged) :
    abandonCount id (.relayed agent tenantId event number :: history) =
      abandonCount id history := by
  simp [abandonCount]

@[simp] theorem relayCount_abandoned (id : UUID) (agent : Nat) (published : List UUID)
    (history : List Logged) :
    relayCount id (.abandoned agent published :: history) = relayCount id history := by
  simp [relayCount]

@[simp] theorem abandonCount_abandoned (id : UUID) (agent : Nat) (published : List UUID)
    (history : List Logged) :
    abandonCount id (.abandoned agent published :: history) =
      abandonCount id history + if id ∈ published then 1 else 0 := by
  simp [abandonCount, List.countP_cons]

/-- What was relayed is in the outbox. -/
theorem Relayed.row_of_count (relayed : Relayed codec state) {id : UUID}
    (h : 0 < relayCount id state.history) : ∃ row ∈ state.database.outbox, row.id = id := by
  obtain ⟨logged, hLogged, hId⟩ := List.countP_pos_iff.mp h
  cases logged with
  | relayed agent tenantId event number =>
      obtain ⟨-, row, hRow, hRowId, -⟩ := relayed.relayed agent tenantId event number hLogged
      exact ⟨row, hRow, hRowId.trans (of_decide_eq_true hId)⟩
  | _ => cases hId

theorem Relayed.events_id (relayed : Relayed codec state) :
    ∀ row ∈ state.database.outbox, row.payload.eventId = row.id := by
  intro row hRow
  obtain ⟨event, hPayload, hId, -⟩ := relayed.events row hRow
  rw [hPayload, hId]

/-- Events describe their documents as long as rows live on. -/
theorem Relayed.events_continue (relayed : Relayed codec state) {documents : List DocumentRow}
    (hDocuments : Continues state.database.documents documents) {row : OutboxRow}
    (hRow : row ∈ state.database.outbox) : ∃ event : WorkerEvent,
      row.payload = event.toDocumentUploaded ∧ event.eventId = row.id ∧
        event.tenantId = row.tenantId ∧
        ∃ stored ∈ documents, stored.ownerKey = eventKey event ∧ Describes event stored := by
  obtain ⟨event, hPayload, hId, hTenant, stored, hStored, hKey, hDescribes⟩ :=
    relayed.events row hRow
  obtain ⟨later, hLater, hSame, hMedia⟩ := hDocuments stored hStored
  exact ⟨event, hPayload, hId, hTenant, later, hLater, hSame.ownerKey.trans hKey,
    (describes_iff_of_same hSame hMedia).mpr hDescribes⟩

/-- What is no relay's work leaves what relays have done. -/
theorem Relayed.frame (relayed : Relayed codec state)
    (hEntries : state.entries <+: after.entries)
    (hOutbox : after.database.outbox = state.database.outbox)
    (hDocuments : Continues state.database.documents after.database.documents)
    (hTransactions : after.transactions = state.transactions)
    (hHistory : after.history = state.history ∨
      ∃ logged, logged.isRelay = false ∧ after.history = logged :: state.history) :
    Relayed codec after := by
  have hRelays (id : UUID) : relayCount id after.history = relayCount id state.history := by
    rcases hHistory with hSame | ⟨logged, hLogged, hSame⟩
    · rw [hSame]
    · rw [hSame, relayCount_cons hLogged]
  have hAbandons (id : UUID) : abandonCount id after.history = abandonCount id state.history := by
    rcases hHistory with hSame | ⟨logged, hLogged, hSame⟩
    · rw [hSame]
    · rw [hSame, abandonCount_cons hLogged]
  constructor
  · rw [hOutbox]
    exact relayed.outboxIds
  · rw [hOutbox]
    exact fun row hRow => relayed.events_continue hDocuments hRow
  · intro agent tenantId event id hMem
    have hOld : .relayed agent tenantId event id ∈ state.history := by
      rcases hHistory with hSame | ⟨logged, hLogged, hSame⟩
      · rwa [hSame] at hMem
      · rw [hSame] at hMem
        rcases List.mem_cons.mp hMem with rfl | hOld
        · cases hLogged
        · exact hOld
    obtain ⟨hEntry, hRow⟩ := relayed.relayed agent tenantId event id hOld
    rw [hOutbox]
    exact ⟨hEntries.subset hEntry, hRow⟩
  · intro agent id hPublished
    rw [hTransactions] at hPublished
    rw [hRelays]
    exact relayed.announced agent id hPublished
  · intro row hRow hPublished
    rw [hOutbox] at hRow
    rw [hRelays]
    exact relayed.published row hRow hPublished
  · intro id
    rw [hRelays, hAbandons]
    exact relayed.counts id
  · intro id hUnclaimed
    rw [Unclaimed, hTransactions, hOutbox] at hUnclaimed
    rw [hRelays, hAbandons]
    exact relayed.unclaimed id hUnclaimed

/-- A transaction that ends without its marks is counted for what it had relayed. -/
theorem Relayed.abandon (relayed : Relayed codec state) (agent : Nat) :
    Relayed codec (state.abandon agent) := by
  have hTransaction {other : Nat} (hOther : other ≠ agent) :
      (state.abandon agent).transactions other = state.transactions other := if_neg hOther
  have hOwn : (state.abandon agent).transactions agent = {} := if_pos rfl
  refine ⟨relayed.outboxIds, relayed.events, ?_, ?_, ?_, ?_, ?_⟩
  · intro other tenantId event id hMem
    rcases List.mem_cons.mp hMem with hSame | hOld
    · cases hSame
    · exact relayed.relayed other tenantId event id hOld
  · intro other id hPublished
    by_cases hOther : other = agent
    · rw [hOther, hOwn] at hPublished
      cases hPublished
    · rw [hTransaction hOther] at hPublished
      exact (relayed.announced other id hPublished).trans_eq (relayCount_abandoned ..).symm
  · intro row hRow hPublished
    exact (relayed.published row hRow hPublished).trans_eq (relayCount_abandoned ..).symm
  · intro id
    have := relayed.counts id
    simp only [DeliveryState.abandon, DeliveryState.log, relayCount_abandoned,
      abandonCount_abandoned]
    exact this.trans (Nat.add_le_add_right (Nat.le_add_right _ _) 1)
  · intro id hUnclaimed
    simp only [DeliveryState.abandon, DeliveryState.log, relayCount_abandoned,
      abandonCount_abandoned]
    show relayCount id state.history ≤ _
    split_ifs with hMine
    · exact relayed.counts id
    · refine relayed.unclaimed id ⟨fun other => ?_, hUnclaimed.2⟩
      by_cases hOther : other = agent
      · rwa [hOther]
      · rw [← hTransaction hOther]
        exact hUnclaimed.1 other

/-- An event relayed for a row that the relay holds and had not relayed yet. -/
theorem Relayed.publish (relayed : Relayed setting.codec state) (locked : Locked state)
    {event : DocumentUploaded} (guard : Guard setting agent state (.publish event)) :
    Relayed setting.codec
      (((state.addEntry (event.streamFields setting.codec)).log
        (.relayed agent (state.transactions agent).tenantId event state.entries.length)).setTransaction
          agent { state.transactions agent with
            published := (state.transactions agent).published ++ [event.eventId] }) := by
  obtain ⟨row, hRow, hTenant, hEvent, hLock, hNew⟩ := guard
  have hId : row.id = event.eventId := by
    rw [hEvent]
    exact (relayed.events_id row hRow).symm
  have hUnclaimed : Unclaimed event.eventId state := by
    refine ⟨fun other hOther => ?_, fun other hOther hSame => ?_⟩
    · have hHolder := locked.exclusive other agent event.eventId (locked.held other _ hOther)
        (hId ▸ hLock)
      rw [hHolder, ← hId] at hOther
      exact hNew hOther
    · exact locked.unpublished agent row.id hLock other hOther (hSame.trans hId.symm)
  refine ⟨relayed.outboxIds, relayed.events, ?_, ?_, ?_, ?_, ?_⟩
  · intro other tenantId relay id hMem
    rcases List.mem_cons.mp hMem with hSame | hOld
    · cases hSame
      exact ⟨List.mem_append_right _ (List.mem_singleton_self _), row, hRow, hId, hTenant, hEvent⟩
    · obtain ⟨hEntry, hRest⟩ := relayed.relayed other tenantId relay id hOld
      exact ⟨List.mem_append_left _ hEntry, hRest⟩
  · intro other id hPublished
    simp only [DeliveryState.setTransaction, DeliveryState.log, relayCount_relayed] at hPublished ⊢
    split_ifs at hPublished
    · rcases List.mem_append.mp hPublished with hOld | hSame
      · exact Nat.add_pos_left (relayed.announced agent id hOld) _
      · rw [if_pos (List.mem_singleton.mp hSame).symm]
        exact Nat.succ_pos _
    · exact Nat.add_pos_left (relayed.announced other id hPublished) _
  · intro other hOther hPublished
    simp only [DeliveryState.setTransaction, DeliveryState.log, relayCount_relayed]
    exact Nat.add_pos_left (relayed.published other hOther hPublished) _
  · intro id
    simp only [DeliveryState.setTransaction, DeliveryState.log, relayCount_relayed,
      abandonCount_relayed]
    split_ifs with hSame
    · rw [← hSame]
      exact Nat.add_le_add_right (relayed.unclaimed _ hUnclaimed) 1
    · exact relayed.counts id
  · intro id hFree
    simp only [DeliveryState.setTransaction, DeliveryState.log, relayCount_relayed,
      abandonCount_relayed]
    have hOwn := hFree.1 agent
    simp only [DeliveryState.setTransaction, if_pos] at hOwn
    rw [if_neg fun hSame => hOwn (List.mem_append_right _ (List.mem_singleton.mpr hSame.symm))]
    refine relayed.unclaimed id ⟨fun other hOther => ?_, hFree.2⟩
    by_cases hSame : other = agent
    · rw [hSame] at hOther
      exact hOwn (List.mem_append_left _ hOther)
    · refine hFree.1 other ?_
      simp only [DeliveryState.setTransaction, if_neg hSame]
      exact hOther

/-- A transaction that commits marks all it has relayed. -/
theorem Relayed.commit (relayed : Relayed codec state) (locked : Locked state)
    (hMarked : (state.transactions agent).published ⊆ (state.transactions agent).marked)
    (now : Timestamp) :
    Relayed codec (({ state with database := { state.database with
      outbox := updateWhere (fun row => (state.transactions agent).marked.contains row.id)
        (fun row => { row with publishedAt := some now }) state.database.outbox } } :
          DeliveryState).endTransaction agent) := by
  have hLater {row : OutboxRow} (hRow : row ∈ state.database.outbox) :
      ∃ later ∈ updateWhere (fun row => (state.transactions agent).marked.contains row.id)
        (fun row => { row with publishedAt := some now }) state.database.outbox,
        outboxEvent later = outboxEvent row ∧
          (later.publishedAt = none → (state.transactions agent).marked.contains row.id = false ∧
            row.publishedAt = none) := by
    refine ⟨_, mem_updateWhere.mpr ⟨row, hRow, rfl⟩, ?_, ?_⟩
    · split_ifs <;> rfl
    · split_ifs with hMark
      · intro h
        cases h
      · exact fun h => ⟨Bool.not_eq_true _ ▸ hMark, h⟩
  refine ⟨?_, ?_, ?_, ?_, ?_, relayed.counts, ?_⟩
  · exact relayed.outboxIds.updateWhere fun row _ => rfl
  · intro row hRow
    obtain ⟨old, hOld, rfl⟩ := mem_updateWhere.mp hRow
    have hEvent := relayed.events old hOld
    split_ifs
    · exact hEvent
    · exact hEvent
  · intro other tenantId event id hMem
    obtain ⟨hEntry, row, hRow, hId, hTenant, hEvent⟩ :=
      relayed.relayed other tenantId event id hMem
    obtain ⟨later, hMember, hSame, -⟩ := hLater hRow
    obtain ⟨hSameId, hSameRest⟩ := Prod.mk.inj hSame
    obtain ⟨hSameTenant, hSamePayload⟩ := Prod.mk.inj hSameRest
    exact ⟨hEntry, later, hMember, hSameId.trans hId, hSameTenant.trans hTenant,
      hSamePayload ▸ hEvent⟩
  · intro other id hPublished
    by_cases hOther : other = agent
    · simp [DeliveryState.endTransaction, DeliveryState.setTransaction, hOther] at hPublished
    · simp only [DeliveryState.endTransaction, DeliveryState.setTransaction, if_neg hOther]
        at hPublished
      exact relayed.announced other id hPublished
  · intro row hRow hPublished
    obtain ⟨old, hOld, rfl⟩ := mem_updateWhere.mp hRow
    split_ifs at hPublished ⊢ with hMark
    · exact relayed.announced agent old.id (locked.marked agent (List.contains_iff_mem.mp hMark))
    · exact relayed.published old hOld hPublished
  · intro id hFree
    have hOwn : id ∉ (state.transactions agent).published := by
      intro hMine
      obtain ⟨row, hRow, hId⟩ := relayed.row_of_count (relayed.announced agent id hMine)
      obtain ⟨later, hMember, hSame, hUnpublished⟩ := hLater hRow
      have hNone := hFree.2 later hMember ((congrArg Prod.fst hSame).trans hId)
      have hNot := (hUnpublished hNone).1
      rw [hId, List.contains_iff_mem.mpr (hMarked hMine)] at hNot
      cases hNot
    refine relayed.unclaimed id ⟨fun other hOther => ?_, fun row hRow hId => ?_⟩
    · by_cases hSame : other = agent
      · exact hOwn (hSame ▸ hOther)
      · refine hFree.1 other ?_
        simpa only [DeliveryState.endTransaction, DeliveryState.setTransaction, if_neg hSame]
          using hOther
    · obtain ⟨later, hMember, hSame, hUnpublished⟩ := hLater hRow
      exact (hUnpublished (hFree.2 later hMember ((congrArg Prod.fst hSame).trans hId))).2

theorem effect_relayed {request : Call} {own : Except Failure (Response request)}
    (relayed : Relayed setting.codec state) (locked : Locked state)
    (unique : state.database.Unique) (guard : Guard setting agent state request)
    (h : effect setting agent state choice request = some (own, middle)) :
    Relayed setting.codec middle := by
  have hGrows := effect_grows unique guard.upsertsKnown h
  cases request with
  | stream command =>
      simp only [effect, Option.map_eq_some_iff] at h
      obtain ⟨⟨answer, after⟩, hEffect, hAfter⟩ := h
      cases hAfter
      obtain ⟨delivered, pending, deadLetters, history, rfl, -, hHistory⟩ :=
        streamEffect_cases hEffect
      refine relayed.frame hGrows.entries rfl hGrows.documents rfl ?_
      rcases hHistory with rfl | ⟨fields, rfl⟩ | ⟨entry, rfl⟩
      · exact Or.inl rfl
      · exact Or.inr ⟨_, rfl, rfl⟩
      · exact Or.inr ⟨_, rfl, rfl⟩
  | markStatus tenantId id status error =>
      simp only [effect] at h
      split at h
      · cases h
        exact relayed
      · cases h
        exact relayed.frame hGrows.entries rfl hGrows.documents rfl (Or.inr ⟨_, rfl, rfl⟩)
  | upsertDocument tenantId filename document =>
      rcases upsertEffect_cases h with ⟨-, rfl⟩ | ⟨record, row, -, -, -, rfl⟩
      · exact relayed
      · exact relayed.frame hGrows.entries (Database.upsertDocument_outbox _ _ _ _)
          hGrows.documents rfl (Or.inr ⟨_, rfl, rfl⟩)
  | begin tenantId =>
      cases h
      have hEnded := relayed.abandon agent
      refine ⟨hEnded.outboxIds, hEnded.events, hEnded.relayed, ?_, hEnded.published,
        hEnded.counts, ?_⟩
      · intro other id hPublished
        simp only [DeliveryState.setTransaction] at hPublished
        split_ifs at hPublished
        · cases hPublished
        · exact hEnded.announced other id hPublished
      · intro id hFree
        refine hEnded.unclaimed id ⟨fun other hOther => ?_, hFree.2⟩
        by_cases hSame : other = agent
        · have hNone : (state.abandon agent).transactions agent = {} := if_pos rfl
          rw [hSame, hNone] at hOther
          cases hOther
        · refine hFree.1 other ?_
          simpa only [DeliveryState.setTransaction, if_neg hSame] using hOther
  | publish event =>
      cases h
      exact relayed.publish locked guard
  | setPublished tenantId id =>
      cases h
      have hPublished (other : Nat) : ∀ marked, ((state.setTransaction agent
          { state.transactions agent with marked }).transactions other).published =
          (state.transactions other).published := by
        intro marked
        simp only [DeliveryState.setTransaction]
        split_ifs with hOther
        · rw [hOther]
        · rfl
      refine ⟨relayed.outboxIds, relayed.events, relayed.relayed, ?_, relayed.published,
        relayed.counts, ?_⟩
      · intro other id hId
        rw [hPublished] at hId
        exact relayed.announced other id hId
      · intro id hFree
        refine relayed.unclaimed id ⟨fun other hOther => hFree.1 other ?_, hFree.2⟩
        rw [hPublished]
        exact hOther
  | commit =>
      cases h
      exact relayed.commit locked guard choice.now
  | rollback =>
      cases h
      exact relayed.abandon agent
  | _ =>
      cases h
      exact relayed.frame hGrows.entries rfl hGrows.documents rfl (Or.inl rfl)

end Relayed

section Recorded
variable {setting : Setting} {codec : Codec} {agent : Nat} {state middle after : DeliveryState}
  {choice : Choice}

/-- Whether a row is logged. -/
def Logged.isRow : Logged → Bool
  | .looked _ _ | .committed _ => true
  | _ => false

/-- Logging no row, and no acknowledgement without a durable outcome before. -/
theorem Recorded.log (recorded : Recorded codec state) (logged : Logged)
    (hLogged : logged.isRow = false)
    (hAcknowledged : ∀ agent entry, logged = .acknowledged agent entry →
      Durable codec entry.fields state.history) : Recorded codec (state.log logged) := by
  have hLookup (agent : Nat) : lastLookup agent (logged :: state.history) =
        lastLookup agent state.history ∧
      sinceLookup agent (logged :: state.history) =
        logged :: sinceLookup agent state.history := by
    cases logged with
    | looked other found => cases hLogged
    | _ => exact ⟨rfl, rfl⟩
  refine ⟨recorded.unique, fun row hRow => List.mem_cons_of_mem _ (recorded.committed row hRow),
    ?_, ?_, ?_⟩
  · intro row hRow
    rcases List.mem_cons.mp hRow with hSame | hOld
    · cases hSame
      cases hLogged
    · exact recorded.living row hOld
  · intro agent row hFound current hCurrent hKey
    obtain ⟨hSame, hSince⟩ := hLookup agent
    have hOld : lastLookup agent state.history = some row := hSame.symm.trans hFound
    rcases recorded.looked agent row hOld current hCurrent hKey with hRow | hMem
    · exact Or.inl hRow
    · refine Or.inr ?_
      show _ ∈ sinceLookup agent (logged :: state.history)
      rw [hSince]
      exact List.mem_cons_of_mem _ hMem
  · intro agent entry earlier hSuffix
    rcases List.suffix_cons_iff.mp hSuffix with hSame | hOld
    · cases hSame
      exact hAcknowledged agent entry rfl
    · exact recorded.acknowledged agent entry earlier hOld

theorem Recorded.abandon (recorded : Recorded codec state) (agent : Nat) :
    Recorded codec (state.abandon agent) := by
  have hLogged := recorded.log (.abandoned agent (state.transactions agent).published) rfl
    fun other entry h => by cases h
  exact ⟨hLogged.unique, hLogged.committed, hLogged.living, hLogged.looked, hLogged.acknowledged⟩

/-- Logging a lookup of what is stored. -/
theorem Recorded.logLooked (recorded : Recorded codec state) {found : Option DocumentRow}
    (hFound : ∀ row, found = some row → row ∈ state.database.documents) (agent : Nat) :
    Recorded codec (state.log (.looked agent found)) := by
  refine ⟨recorded.unique, fun row hRow => List.mem_cons_of_mem _ (recorded.committed row hRow),
    ?_, ?_, ?_⟩
  · intro row hRow
    rcases List.mem_cons.mp hRow with hSame | hOld
    · cases hSame
    · exact recorded.living row hOld
  · intro other row hLooked current hCurrent hKey
    by_cases hOther : agent = other
    · have hRow : found = some row := by
        rw [← hLooked]
        exact (if_pos hOther).symm
      refine Or.inl (recorded.unique.eq_of_id hCurrent (hFound row hRow) ?_)
      exact congrArg Prod.snd hKey
    · have hOld : lastLookup other state.history = some row := by
        rw [← hLooked]
        exact (if_neg hOther).symm
      rcases recorded.looked other row hOld current hCurrent hKey with hRow | hMem
      · exact Or.inl hRow
      · refine Or.inr ?_
        show _ ∈ sinceLookup other (.looked agent found :: state.history)
        rw [sinceLookup, if_neg hOther]
        exact List.mem_cons_of_mem _ hMem
  · intro other entry earlier hSuffix
    rcases List.suffix_cons_iff.mp hSuffix with hSame | hOld
    · cases hSame
    · exact recorded.acknowledged other entry earlier hOld

/-- A database that stores a row among rows that were stored before. -/
structure Stores (before : List DocumentRow) (database : Database) (row : DocumentRow) :
    Prop where
  unique : database.Unique
  stored : row ∈ database.documents
  others : ∀ other ∈ database.documents, other = row ∨ other ∈ before

theorem Recorded.store (recorded : Recorded codec state) {database : Database}
    {row : DocumentRow} (stores : Stores state.database.documents database row)
    (hContinues : Continues state.database.documents database.documents) :
    Recorded codec (state.store database (some row)) := by
  refine ⟨stores.unique, ?_, ?_, ?_, ?_⟩
  · intro other hOther
    rcases stores.others other hOther with rfl | hOld
    · exact List.mem_cons_self ..
    · exact List.mem_cons_of_mem _ (recorded.committed other hOld)
  · intro other hOther
    rcases List.mem_cons.mp hOther with hSame | hOld
    · cases hSame
      exact ⟨row, stores.stored, rfl⟩
    · obtain ⟨living, hLiving, hKey⟩ := recorded.living other hOld
      obtain ⟨later, hLater, hSame, -⟩ := hContinues living hLiving
      exact ⟨later, hLater, hSame.ownerKey.trans hKey⟩
  · intro agent seen hLooked current hCurrent hKey
    rcases stores.others current hCurrent with rfl | hOld
    · exact Or.inr (List.mem_cons_self ..)
    · rcases recorded.looked agent seen hLooked current hOld hKey with hSame | hMem
      · exact Or.inl hSame
      · exact Or.inr (List.mem_cons_of_mem _ hMem)
  · intro agent entry earlier hSuffix
    rcases List.suffix_cons_iff.mp hSuffix with hSame | hOld
    · cases hSame
    · exact recorded.acknowledged agent entry earlier hOld

/-- In a table where the condition picks one row, an update leaves that row changed and
the others. -/
theorem mem_update_single {rows : List DocumentRow} (condition : DocumentRow → Bool)
    (change : DocumentRow → DocumentRow) {row : DocumentRow} (hRow : row ∈ rows)
    (hCondition : condition row = true)
    (hSingle : ∀ other ∈ rows, condition other = true → other = row) :
    change row ∈ updateWhere condition change rows ∧
      ∀ other ∈ updateWhere condition change rows, other = change row ∨ other ∈ rows := by
  constructor
  · exact mem_updateWhere.mpr ⟨row, hRow, by rw [if_pos hCondition]⟩
  · intro other hOther
    obtain ⟨old, hOld, rfl⟩ := mem_updateWhere.mp hOther
    split_ifs with hChanged
    · rw [hSingle old hOld hChanged]
      exact Or.inl rfl
    · exact Or.inr hOld

theorem markStatus_stores {database : Database} (unique : database.Unique) {tenantId : String}
    {id : UUID} {row : DocumentRow} (hFound : database.findById tenantId id = some row)
    (status : DocumentStatus) (error : Option String) :
    Stores database.documents (database.markStatus tenantId id status error)
      (statusRow status error row) := by
  obtain ⟨hRow, hKey⟩ := select_mem hFound
  obtain ⟨hStored, hOthers⟩ := mem_update_single (fun other => other.ownerKey = (tenantId, id))
    (statusRow status error) hRow (decide_eq_true hKey) fun other hOther hCondition =>
      unique.eq_of_id hOther hRow
        (congrArg Prod.snd ((of_decide_eq_true hCondition).trans hKey.symm))
  exact ⟨unique.markStatus tenantId id status error, hStored, hOthers⟩

/-- An upsert stores the row it found with its output replaced, or a new row. -/
theorem upsertDocument_stores {database : Database} (unique : database.Unique)
    (uuid5 : UUID → String → UUID) (record : StoredDocument) (now : Timestamp) {row : DocumentRow}
    (hRow : (database.findByContent record.tenantId record.sha256 = none ∧
        select DocumentRow.id record.id database.documents = none ∧
        row = insertedRow record.toDocumentRow now) ∨
      ∃ old, database.findByContent record.tenantId record.sha256 = some old ∧
        row = replacedRow record.toDocumentRow now old) :
    Stores database.documents (database.upsertDocument uuid5 record now) row := by
  have hDocuments := Database.upsertDocument_documents uuid5 record now database
  rcases hRow with ⟨hAbsent, hFresh, rfl⟩ | ⟨old, hFound, rfl⟩
  · rw [Database.upsertRow_absent hAbsent] at hDocuments
    refine ⟨unique.upsertDocument uuid5 now fun _ => hFresh, ?_, ?_⟩
    · rw [hDocuments]
      exact List.mem_append_right _ (List.mem_singleton_self _)
    · rw [hDocuments]
      intro other hOther
      rcases List.mem_append.mp hOther with hOld | hNew
      · exact Or.inr hOld
      · exact Or.inl (List.mem_singleton.mp hNew)
  · rw [Database.upsertRow_found hFound] at hDocuments
    obtain ⟨hOld, hOldKey⟩ := select_mem hFound
    obtain ⟨hStored, hOthers⟩ := mem_update_single
      (fun other => other.contentKey = record.contentKey)
      (replacedRow record.toDocumentRow now) hOld
      (decide_eq_true hOldKey) fun other hOther hCondition =>
        unique.contents.eq_of_key hOther hOld
          ((of_decide_eq_true hCondition).trans hOldKey.symm)
    refine ⟨unique.upsertDocument uuid5 now fun hAbsent => ?_, ?_, ?_⟩
    · rw [hFound] at hAbsent
      cases hAbsent
    · rw [hDocuments]
      exact hStored
    · rw [hDocuments]
      exact hOthers

/-- What an answered upsert has stored. -/
theorem upsertEffect_stores (unique : state.database.Unique) {tenantId filename : String}
    {document : Document} {answer : Except Failure Unit}
    (h : effect setting agent state choice (.upsertDocument tenantId filename document) =
      some (answer, middle)) :
    (answer = .error (.value "ValueError") ∧ middle = state) ∨
      ∃ database row, answer = .ok () ∧ Stores state.database.documents database row ∧
        row.status = .processed ∧ row.pipelineVersion = some document.pipelineVersion ∧
        database.outbox = state.database.outbox ∧
        middle = state.store database (some row) := by
  rcases upsertEffect_cases h with hError | ⟨record, row, hPrepared, hAnswer, hRow, rfl⟩
  · exact Or.inl hError
  · have hRecord := prepareDocument_ok hPrepared
    have hTenant : record.tenantId = tenantId := by rw [hRecord]
    have hDigest : record.sha256 = document.sha256 := by rw [hRecord]
    have hId : record.id = choice.identifier := by rw [hRecord]
    rw [← hTenant, ← hDigest, ← hId] at hRow
    refine Or.inr ⟨_, row, hAnswer, upsertDocument_stores unique setting.uuid5 record choice.now
      hRow, ?_, ?_, Database.upsertDocument_outbox _ _ _ _, rfl⟩
    · rcases hRow with ⟨-, -, rfl⟩ | ⟨old, -, rfl⟩
      · rw [hRecord]
        rfl
      · rw [hRecord]
        rfl
    · rcases hRow with ⟨-, -, rfl⟩ | ⟨old, -, rfl⟩
      · rw [hRecord]
        rfl
      · rw [hRecord]
        rfl

theorem effect_recorded {request : Call} {own : Except Failure (Response request)}
    (recorded : Recorded setting.codec state) (guard : Guard setting agent state request)
    (h : effect setting agent state choice request = some (own, middle)) :
    Recorded setting.codec middle := by
  have hContinues := (effect_grows recorded.unique guard.upsertsKnown h).documents
  have hSame {reached : DeliveryState} (kept : Recorded setting.codec reached)
      (hDatabase : middle.database.documents = reached.database.documents)
      (hHistory : middle.history = reached.history) : Recorded setting.codec middle := by
    refine ⟨⟨?_, ?_⟩, ?_, ?_, ?_, ?_⟩
    · rw [hDatabase]
      exact kept.unique.ids
    · rw [hDatabase]
      exact kept.unique.contents
    · rw [hDatabase, hHistory]
      exact kept.committed
    · rw [hDatabase, hHistory]
      exact kept.living
    · rw [hDatabase, hHistory]
      exact kept.looked
    · rw [hHistory]
      exact kept.acknowledged
  cases request with
  | stream command =>
      simp only [effect, Option.map_eq_some_iff] at h
      obtain ⟨⟨answer, reached⟩, hEffect, hAfter⟩ := h
      cases hAfter
      cases command with
      | acknowledge id =>
          simp only [streamEffect] at hEffect
          split at hEffect
          · rename_i entry hPending hEntry
            cases hEffect
            obtain ⟨hMem, hId⟩ := select_mem hEntry
            refine hSame (recorded.log (.acknowledged agent entry) rfl ?_) rfl rfl
            intro other acknowledged h
            cases h
            exact (guard entry hMem hId).1
          · cases hEffect
            exact recorded
      | addDeadLetter fields =>
          cases hEffect
          refine hSame (recorded.log (.deadLettered agent fields) rfl ?_) rfl rfl
          intro other acknowledged h
          cases h
      | autoClaim cursor =>
          simp only [streamEffect] at hEffect
          split_ifs at hEffect
          cases hEffect
          exact hSame recorded rfl rfl
      | _ =>
          cases hEffect
          exact hSame recorded rfl rfl
  | markStatus tenantId id status error =>
      simp only [effect] at h
      split at h
      · cases h
        exact recorded
      · rename_i row hFound
        cases h
        exact recorded.store (markStatus_stores recorded.unique hFound status error) hContinues
  | upsertDocument tenantId filename document =>
      rcases upsertEffect_stores recorded.unique h with
        ⟨-, rfl⟩ | ⟨database, row, -, stores, -, -, -, rfl⟩
      · exact recorded
      · exact recorded.store stores hContinues
  | begin tenantId =>
      cases h
      exact hSame (recorded.abandon agent) rfl rfl
  | rollback =>
      cases h
      exact hSame (recorded.abandon agent) rfl rfl
  | publish event =>
      cases h
      refine hSame (recorded.log (.relayed agent (state.transactions agent).tenantId event
        state.entries.length) rfl ?_) rfl rfl
      intro other acknowledged h
      cases h
  | _ =>
      cases h
      exact hSame recorded rfl rfl

/-- What a lookup is answered is stored. -/
def Truthful (state : DeliveryState) :
    (request : Call) → Except Failure (Response request) → Prop
  | .getDocument tenantId id, .ok found => found = state.database.getDocument tenantId id
  | _, _ => True

theorem effect_truthful {request : Call} {own : Except Failure (Response request)}
    (h : effect setting agent state choice request = some (own, middle)) :
    Truthful middle request own := by
  cases request with
  | getDocument tenantId id =>
      cases h
      rfl
  | _ => trivial

theorem getDocument_mem {database : Database} {tenantId : String} {id : UUID}
    {document : StoredDocument} (h : database.getDocument tenantId id = some document) :
    document.toDocumentRow ∈ database.documents ∧ document.ownerKey = (tenantId, id) := by
  obtain ⟨row, hRow, rfl⟩ := Option.map_eq_some_iff.mp h
  exact select_mem hRow

theorem note_recorded {request : Call} {answer : Except Failure (Response request)}
    (recorded : Recorded codec state) (truthful : Truthful state request answer) (agent : Nat) :
    Recorded codec (note agent request answer state) := by
  have hAttempt (reached : DeliveryState) (kept : Recorded codec reached) (attempt : Attempt) :
      Recorded codec (reached.setAttempt agent attempt) :=
    ⟨kept.unique, kept.committed, kept.living, kept.looked, kept.acknowledged⟩
  unfold note
  split
  · exact hAttempt state recorded _
  · exact hAttempt state recorded _
  · exact hAttempt state recorded _
  · rename_i tenantId id found
    refine hAttempt _ (recorded.logLooked ?_ agent) _
    intro row hRow
    obtain ⟨document, rfl, rfl⟩ := Option.map_eq_some_iff.mp hRow
    exact (getDocument_mem truthful.symm).1
  · exact recorded.logLooked (fun row hRow => by cases hRow) agent
  · split_ifs
    · exact hAttempt state recorded _
    · exact recorded
  · exact recorded

end Recorded

section Sound
variable {setting : Setting} {codec : Codec} {agent : Nat} {state after : DeliveryState}
  {choice : Choice}

/-- Before its lookups and its marks an agent has had its entry delivered. -/
theorem Guard.delivered {request : Call} (guard : Guard setting agent state request) {id : Nat}
    (hEntry : (state.attempts agent).entry = some id)
    (hRequest : (∃ tenantId id, request = .getDocument tenantId id) ∨
      ∃ tenantId id status error, request = .markStatus tenantId id status error) :
    id < state.delivered := by
  have hHandles {entry : StreamMessage} {event : WorkerEvent}
      (handles : Handles setting.codec agent entry event state) : id < state.delivered := by
    cases handles.attempt.symm.trans hEntry
    exact handles.delivered
  rcases hRequest with ⟨tenantId, id, rfl⟩ | ⟨tenantId, id, status, error, rfl⟩
  · obtain ⟨entry, event, handles, -⟩ := guard
    exact hHandles handles
  · obtain ⟨-, entry, event, working, -⟩ := guard
    exact hHandles working.toHandles

theorem effect_sound {request : Call} {middle : DeliveryState}
    {own : Except Failure (Response request)} (sound : Sound setting.codec state)
    (guard : Guard setting agent state request)
    (h : effect setting agent state choice request = some (own, middle)) :
    Sound setting.codec middle :=
  ⟨effect_queued sound.toQueued h,
    effect_locked sound.toLocked sound.outboxIds sound.toRelayed.events_id guard h,
    effect_relayed sound.toRelayed sound.toLocked sound.unique guard h,
    effect_recorded sound.toRecorded guard h⟩

theorem perform_sound {request : Call} {answer : Except Failure (Response request)}
    (sound : Sound setting.codec state) (guard : Guard setting agent state request)
    (h : perform setting agent state choice request = some (answer, after)) :
    Sound setting.codec after := by
  obtain ⟨middle, rfl, hMiddle⟩ := perform_cases h
  obtain ⟨attempt, history, hNote, hHistory⟩ := note_cases agent request answer middle
  have hGrows := note_grows agent request answer middle
  have hFacts : Sound setting.codec middle ∧ Truthful middle request answer ∧
      middle.attempts = state.attempts ∧ state.delivered ≤ middle.delivered := by
    rcases hMiddle with ⟨rfl, error, rfl, -⟩ | ⟨own, hEffect, hAnswer⟩
    · refine ⟨sound, ?_, rfl, le_rfl⟩
      cases request <;> trivial
    · refine ⟨effect_sound sound guard hEffect, ?_, (effect_quiet hEffect).1, (effect_grows sound.unique guard.upsertsKnown hEffect).delivered⟩
      rcases hAnswer with rfl | ⟨error, rfl, -⟩
      · exact effect_truthful hEffect
      · cases request <;> trivial
  obtain ⟨hSound, hTruthful, hAttempts, hDelivered⟩ := hFacts
  refine ⟨note_queued hSound.toQueued (fun id hEntry hRequest => ?_) answer, ?_, ?_,
    note_recorded hSound.toRecorded hTruthful agent⟩
  · rw [hAttempts] at hEntry
    exact (guard.delivered hEntry hRequest).trans_le hDelivered
  · rw [hNote]
    exact hSound.toLocked.frame rfl rfl rfl
  · rw [hNote] at hGrows ⊢
    refine hSound.toRelayed.frame hGrows.entries rfl hGrows.documents rfl ?_
    rcases hHistory with rfl | ⟨found, rfl⟩
    · exact Or.inl rfl
    · exact Or.inr ⟨_, rfl, rfl⟩

/-- A new document comes with its event. -/
theorem Relayed.register (relayed : Relayed codec state) {upload : Upload}
    (hFresh : select OutboxRow.id upload.eventId state.database.outbox = none) :
    Relayed codec (state.store
      { state.database with
        documents := state.database.documents ++ [upload.record]
        outbox := state.database.outbox ++
          [{ id := upload.eventId, tenantId := upload.tenantId,
             aggregateId := upload.documentId, payload := upload.event.toDocumentUploaded,
             createdAt := upload.createdAt }] }
      (some upload.record)) := by
  refine ⟨relayed.outboxIds.append hFresh, ?_, ?_, ?_, ?_, relayed.counts, ?_⟩
  · intro row hRow
    rcases List.mem_append.mp hRow with hOld | hNew
    · exact relayed.events_continue (Continues.append _ _) hOld
    · rw [List.mem_singleton.mp hNew]
      exact ⟨upload.event, rfl, rfl, rfl, upload.record,
        List.mem_append_right _ (List.mem_singleton_self _), rfl, rfl, rfl, rfl, rfl⟩
  · intro agent tenantId event id hMem
    rcases List.mem_cons.mp hMem with hSame | hOld
    · cases hSame
    · obtain ⟨hEntry, row, hRow, hRest⟩ := relayed.relayed agent tenantId event id hOld
      exact ⟨hEntry, row, List.mem_append_left _ hRow, hRest⟩
  · exact relayed.announced
  · intro row hRow hPublished
    rcases List.mem_append.mp hRow with hOld | hNew
    · exact relayed.published row hOld hPublished
    · rw [List.mem_singleton.mp hNew] at hPublished
      exact absurd rfl hPublished
  · exact fun id hFree => relayed.unclaimed id
      ⟨hFree.1, fun row hRow => hFree.2 row (List.mem_append_left _ hRow)⟩

theorem Locked.register (locked : Locked state) {database : Database} {row : OutboxRow}
    {stored : DocumentRow} (hOutbox : database.outbox = state.database.outbox ++ [row])
    (hUnpublished : row.publishedAt = none) : Locked (state.store database (some stored)) := by
  refine ⟨locked.exclusive, ?_, locked.held, locked.marked⟩
  intro agent id hLock other hOther hId
  rw [DeliveryState.store_database, hOutbox] at hOther
  rcases List.mem_append.mp hOther with hOld | hNew
  · exact locked.unpublished agent id hLock other hOld hId
  · rw [List.mem_singleton.mp hNew]
    exact hUnpublished

theorem register_stores (unique : state.database.Unique) {upload : Upload}
    {database : Database} (hAbsent : state.database.findByContent upload.tenantId upload.sha256 = none)
    (hFresh : select DocumentRow.id upload.documentId state.database.documents = none)
    (hDocuments : database.documents = state.database.documents ++ [upload.record]) :
    Stores state.database.documents database upload.record := by
  have hUnique := unique.insert upload.record hFresh hAbsent
  refine ⟨⟨?_, ?_⟩, ?_, ?_⟩
  · rw [hDocuments]
    exact hUnique.ids
  · rw [hDocuments]
    exact hUnique.contents
  · rw [hDocuments]
    exact List.mem_append_right _ (List.mem_singleton_self _)
  · rw [hDocuments]
    intro other hOther
    rcases List.mem_append.mp hOther with hOld | hNew
    · exact Or.inr hOld
    · exact Or.inl (List.mem_singleton.mp hNew)

theorem occur_sound {event : Event} (sound : Sound codec state)
    (h : occur state event = some after) : Sound codec after := by
  have hGrows := occur_grows h
  cases event with
  | register upload =>
      rcases register_cases h with rfl | ⟨hAbsent, hFresh, hEvent, rfl⟩
      · exact sound
      · exact ⟨⟨sound.entryIds, sound.delivered, sound.pending, sound.settled⟩,
          sound.toLocked.register rfl rfl, sound.toRelayed.register hEvent,
          sound.toRecorded.store (register_stores sound.unique hAbsent hFresh rfl)
            hGrows.documents⟩
  | append fields =>
      cases h
      exact ⟨sound.toQueued.addEntry fields, sound.toLocked.frame rfl rfl rfl,
        sound.toRelayed.frame hGrows.entries rfl hGrows.documents rfl (Or.inl rfl),
        ⟨sound.unique, sound.committed, sound.living, sound.looked, sound.acknowledged⟩⟩

theorem crash_sound (sound : Sound codec state) (agent : Nat) :
    Sound codec (crash agent state) := by
  have hRelayed := sound.toRelayed.abandon agent
  have hRecorded := sound.toRecorded.abandon agent
  have hLocked := sound.toLocked.endTransaction agent
  refine ⟨⟨sound.entryIds, sound.delivered, sound.pending, ?_⟩, hLocked.frame rfl rfl rfl,
    ⟨hRelayed.outboxIds, hRelayed.events, hRelayed.relayed, hRelayed.announced,
      hRelayed.published, hRelayed.counts, hRelayed.unclaimed⟩,
    ⟨hRecorded.unique, hRecorded.committed, hRecorded.living, hRecorded.looked,
      hRecorded.acknowledged⟩⟩
  intro other id hSettled
  simp only [crash, DeliveryState.setAttempt] at hSettled
  split_ifs at hSettled
  · cases hSettled
  · exact sound.settled other id hSettled

end Sound

/-- What the processes agree on: the stores stay sound, guards are met, and others spare
an agent's attempt, its transaction and its last lookup while everything else grows. -/
def knowledge (setting : Setting) : Discipline (environment setting) where
  Inv := Sound setting.codec
  Guard := Guard setting
  Rely agent before after := Grows before after ∧ Spares agent before after
  rely_refl agent state := ⟨Grows.refl state, Spares.refl agent state⟩
  rely_trans _ _ _ _ h h' := ⟨h.1.trans h'.1, h.2.trans h'.2⟩
  call_inv _ _ _ _ _ _ sound guard h := perform_sound sound guard h
  call_rely _ _ _ _ _ _ _ hOther sound guard h :=
    ⟨perform_grows sound.unique guard.upsertsKnown h, perform_spares hOther h⟩
  event_inv _ _ _ sound h := occur_sound sound h
  event_rely agent _ _ _ _ h := ⟨occur_grows h, occur_spares agent h⟩
  crash_inv agent _ sound := crash_sound sound agent
  crash_rely agent _ state hOther _ := ⟨crash_grows agent state, crash_spares hOther state⟩

/-- Nothing is stored, delivered or known yet. -/
theorem sound_empty (codec : Codec) : Sound codec {} := by
  refine ⟨⟨rfl, le_rfl, ?_, ?_⟩, ⟨?_, ?_, ?_, ?_⟩, ⟨List.nodup_nil, ?_, ?_, ?_, ?_, ?_, ?_⟩,
    ⟨⟨List.nodup_nil, List.nodup_nil⟩, ?_, ?_, ?_, ?_⟩⟩
  all_goals simp [relayCount, lastLookup, List.suffix_nil]

end DocInsight.Delivery
