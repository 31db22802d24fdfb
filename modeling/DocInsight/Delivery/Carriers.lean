import DocInsight.Delivery.Completion

/-! Unfinished documents have a carrier of their work, as long as no worker marks one as
processing for a delivery that another worker has finished with. -/
namespace DocInsight.Delivery

open DocInsight.Contracts DocInsight.Worker Interaction Table

/-- Work on the document has not ended. -/
def Unfinished (row : DocumentRow) : Prop := row.status = .uploaded ∨ row.status = .processing

/-- The entry names the document. -/
def Names (codec : Codec) (fields : Fields) (row : DocumentRow) : Prop :=
  ∃ event, WorkerEvent.modelValidate codec fields = some event ∧ eventKey event = row.ownerKey

/-- A live carrier of work for a document: an unpublished outbox row, an entry that is not
delivered yet, or one that is delivered and not acknowledged. -/
def Carried (codec : Codec) (state : DeliveryState) (row : DocumentRow) : Prop :=
  (∃ waiting ∈ state.database.outbox, waiting.publishedAt = none ∧
      (waiting.payload.tenantId, waiting.payload.documentId) = row.ownerKey) ∨
    (∃ entry ∈ state.entries.drop state.delivered, Names codec entry.fields row) ∨
    ∃ pending ∈ state.pending, ∃ entry ∈ state.entries, entry.id = pending.id ∧
      Names codec entry.fields row

/-- No document that waits for work is without a carrier. -/
def NoneStranded (codec : Codec) (state : DeliveryState) : Prop :=
  ∀ row ∈ state.database.documents, Unfinished row → Carried codec state row

/-- The delivery is pending, and no worker has come to an outcome for it. -/
def Outstanding (state : DeliveryState) (number : Nat) : Prop :=
  (∃ pending ∈ state.pending, pending.id = number) ∧
    ∀ agent, state.attempts agent ≠ ⟨some number, true⟩

/-- A move that commits 'processing' is made by a worker whose own delivery is outstanding. -/
def MarksOutstanding (deployment : Deployment) : Move → Prop
  | .advance agent choice => ∀ tenantId id error next,
      deployment.programs agent = some (.call (.markStatus tenantId id .processing error) next) →
      choice.Commits → ∀ number, (deployment.state.attempts agent).entry = some number →
      Outstanding deployment.state number
  | _ => True

/-- The entry is the event of the document, by all that a lookup compares. -/
def Describing (codec : Codec) (fields : Fields) (row : DocumentRow) : Prop :=
  ∃ event, WorkerEvent.modelValidate codec fields = some event ∧ eventKey event = row.ownerKey ∧
    Describes event row

/-- A carrier that no agent is about to drop: an outbox row that no open transaction has
published, an entry not delivered, or an outstanding delivery. -/
def Secured (codec : Codec) (state : DeliveryState) (row : DocumentRow) : Prop :=
  (∃ waiting ∈ state.database.outbox, waiting.publishedAt = none ∧
      (∀ agent, waiting.id ∉ (state.transactions agent).published) ∧
      ∃ event : WorkerEvent, waiting.payload = event.toDocumentUploaded ∧
        eventKey event = row.ownerKey ∧ Describes event row) ∨
    (∃ entry ∈ state.entries.drop state.delivered, Describing codec entry.fields row) ∨
    ∃ entry ∈ state.entries, Outstanding state entry.id ∧ Describing codec entry.fields row

/-- Every unfinished document has a secured carrier. -/
def AllSecured (codec : Codec) (state : DeliveryState) : Prop :=
  ∀ row ∈ state.database.documents, Unfinished row → Secured codec state row

section Secured
variable {codec : Codec} {state after : DeliveryState} {row later : DocumentRow}

theorem Secured.carried (h : Secured codec state row) : Carried codec state row := by
  rcases h with ⟨waiting, hWaiting, hUnpublished, -, event, hPayload, hKey, -⟩ |
    ⟨entry, hEntry, event, hValid, hKey, -⟩ | ⟨entry, hEntry, ⟨hPending, -⟩, event, hValid, hKey, -⟩
  · refine Or.inl ⟨waiting, hWaiting, hUnpublished, ?_⟩
    rw [hPayload]
    exact hKey
  · exact Or.inr (Or.inl ⟨entry, hEntry, event, hValid, hKey⟩)
  · obtain ⟨pending, hMem, hId⟩ := hPending
    exact Or.inr (Or.inr ⟨pending, hMem, entry, hEntry, hId.symm, event, hValid, hKey⟩)

theorem AllSecured.noneStranded (h : AllSecured codec state) : NoneStranded codec state :=
  fun row hRow hUnfinished => (h row hRow hUnfinished).carried

/-- Carriers are kept where outbox, entries and pending entries are, and nothing more is
published or settled. -/
theorem Secured.frame (h : Secured codec state row)
    (hOutbox : state.database.outbox ⊆ after.database.outbox)
    (hPublished : ∀ agent, (after.transactions agent).published ⊆
      (state.transactions agent).published)
    (hEntries : state.entries <+: after.entries) (hDelivered : after.delivered = state.delivered)
    (hPending : ∀ pending ∈ state.pending, ∃ later ∈ after.pending, later.id = pending.id)
    (hSettled : ∀ entry ∈ state.entries, Describing codec entry.fields row →
      ∀ agent, after.attempts agent = ⟨some entry.id, true⟩ →
        state.attempts agent = ⟨some entry.id, true⟩) : Secured codec after row := by
  rcases h with ⟨waiting, hWaiting, hUnpublished, hFree, hEvent⟩ | ⟨entry, hEntry, hDescribing⟩ |
    ⟨entry, hEntry, ⟨⟨pending, hMem, hId⟩, hOpen⟩, hDescribing⟩
  · exact Or.inl ⟨waiting, hOutbox hWaiting, hUnpublished,
      fun agent hMine => hFree agent (hPublished agent hMine), hEvent⟩
  · refine Or.inr (Or.inl ⟨entry, ?_, hDescribing⟩)
    obtain ⟨more, hMore⟩ := hEntries
    rw [← hMore, hDelivered, List.drop_append]
    exact List.mem_append_left _ hEntry
  · obtain ⟨kept, hKept, hSame⟩ := hPending pending hMem
    exact Or.inr (Or.inr ⟨entry, hEntries.subset hEntry, ⟨⟨kept, hKept, hSame.trans hId⟩,
      fun agent hAgent => hOpen agent (hSettled entry hEntry hDescribing agent hAgent)⟩,
      hDescribing⟩)

/-- An entry that is not delivered has a number past the delivered ones. -/
theorem Queued.delivered_le (queued : Queued state) {entry : StreamMessage}
    (hEntry : entry ∈ state.entries.drop state.delivered) : state.delivered ≤ entry.id := by
  obtain ⟨index, hIndex, rfl⟩ := List.mem_iff_getElem.mp hEntry
  rw [List.getElem_drop, queued.id_eq]
  exact Nat.le_add_right _ _

/-- A read makes outstanding deliveries of the entries it takes. -/
theorem Secured.readGroup (h : Secured codec state row) (queued : Queued state) (batch : Nat)
    (hAfter : after = { state with
      delivered := state.delivered + ((state.entries.drop state.delivered).take batch).length
      pending := state.pending ++
        ((state.entries.drop state.delivered).take batch).map fun message => ⟨message.id, 1⟩ }) :
    Secured codec after row := by
  subst hAfter
  rcases h with hWaiting | ⟨entry, hEntry, hDescribing⟩ |
    ⟨entry, hEntry, ⟨⟨pending, hMem, hId⟩, hOpen⟩, hDescribing⟩
  · exact Or.inl hWaiting
  · have hSplit := hEntry
    rw [← List.take_append_drop batch (state.entries.drop state.delivered)] at hSplit
    rcases List.mem_append.mp hSplit with hTaken | hLeft
    · refine Or.inr (Or.inr ⟨entry, List.mem_of_mem_drop hEntry, ⟨?_, ?_⟩, hDescribing⟩)
      · exact ⟨⟨entry.id, 1⟩, List.mem_append_right _ (List.mem_map.mpr ⟨entry, hTaken, rfl⟩), rfl⟩
      · intro agent hSettled
        exact absurd (queued.settled agent entry.id hSettled)
          (Nat.not_lt.mpr (queued.delivered_le hEntry))
    · refine Or.inr (Or.inl ⟨entry, ?_, hDescribing⟩)
      rw [List.drop_drop] at hLeft
      have hLength : ((state.entries.drop state.delivered).take batch).length ≤ batch :=
        List.length_take_le _ _
      by_cases hAll : batch ≤ (state.entries.drop state.delivered).length
      · rw [List.length_take_of_le hAll]
        exact hLeft
      · rw [← List.drop_drop, List.drop_eq_nil_of_le (Nat.le_of_not_le hAll)] at hLeft
        cases hLeft
  · exact Or.inr (Or.inr ⟨entry, hEntry, ⟨⟨pending, List.mem_append_left _ hMem, hId⟩, hOpen⟩,
      hDescribing⟩)

/-- A row that lives on keeps its carriers. -/
theorem Secured.of_same (h : Secured codec state row) (hSame : SameIdentity row later)
    (hMedia : later.mediaType = row.mediaType) : Secured codec state later := by
  have hKey := hSame.ownerKey
  have hDescribes {event : WorkerEvent} (h : Describes event row) : Describes event later :=
    (describes_iff_of_same hSame hMedia).mpr h
  have hDescribing {fields : Fields} (h : Describing codec fields row) :
      Describing codec fields later := by
    obtain ⟨event, hValid, hEvent, hRow⟩ := h
    exact ⟨event, hValid, hEvent.trans hKey.symm, hDescribes hRow⟩
  rcases h with ⟨waiting, hWaiting, hUnpublished, hFree, event, hPayload, hEvent, hRow⟩ |
    ⟨entry, hEntry, hRow⟩ | ⟨entry, hEntry, hOpen, hRow⟩
  · exact Or.inl ⟨waiting, hWaiting, hUnpublished, hFree, event, hPayload,
      hEvent.trans hKey.symm, hDescribes hRow⟩
  · exact Or.inr (Or.inl ⟨entry, hEntry, hDescribing hRow⟩)
  · exact Or.inr (Or.inr ⟨entry, hEntry, hOpen, hDescribing hRow⟩)

end Secured

section Steps
variable {setting : Setting} {agent : Nat} {state middle after : DeliveryState} {choice : Choice}
  {request : Call} {row : DocumentRow}

/-- An agent that may acknowledge an entry has come to its outcome, or the entry is no
document's event. -/
theorem Secured.acknowledge (h : Secured setting.codec state row)
    (sound : Sound setting.codec state) (hRow : row ∈ state.database.documents)
    (reads : ReadsAnswer setting) {number : Nat}
    (guard : Guard setting agent state (.stream (.acknowledge number))) (history : List Logged) :
    Secured setting.codec { state with
      pending := state.pending.filter fun other => other.id ≠ number
      history } row := by
  rcases h with hWaiting | hEntry | ⟨entry, hEntry, ⟨⟨pending, hMem, hId⟩, hOpen⟩, hDescribing⟩
  · exact Or.inl hWaiting
  · exact Or.inr (Or.inl hEntry)
  · have hOther : entry.id ≠ number := by
      intro hSame
      rcases (guard entry hEntry hSame).2 reads with hSettled | hBarren
      · exact hOpen agent (hSame ▸ hSettled)
      · obtain ⟨event, hValid, hKey, hDescribes⟩ := hDescribing
        obtain ⟨other, hOther, hOtherKey, hNot⟩ := hBarren event hValid
        have hSameRow : other = row :=
          sound.unique.eq_of_id hOther hRow (congrArg Prod.snd (hOtherKey.trans hKey))
        exact hNot (hSameRow ▸ hDescribes)
    refine Or.inr (Or.inr ⟨entry, hEntry, ⟨⟨pending, ?_, hId⟩, hOpen⟩, hDescribing⟩)
    exact List.mem_filter.mpr ⟨hMem, decide_eq_true (hId ▸ hOther)⟩

/-- Publishing a row's event puts it on the stream. -/
theorem Secured.publish (h : Secured setting.codec state row)
    (sound : Sound setting.codec state) (lawful : setting.codec.Lawful)
    {event : DocumentUploaded} (guard : Guard setting agent state (.publish event))
    (hEffect : effect setting agent state choice (.publish event) = some (.ok (), middle)) :
    Secured setting.codec middle row := by
  cases hEffect
  rcases h with ⟨waiting, hWaiting, hUnpublished, hFree, hEvent⟩ | ⟨entry, hEntry, hDescribing⟩ |
    ⟨entry, hEntry, hOpen, hDescribing⟩
  · by_cases hSame : waiting.id = event.eventId
    · obtain ⟨source, hSource, -, hCopy, -, -⟩ := guard
      have hSourceId : source.id = waiting.id := by
        rw [hSame, hCopy]
        exact (sound.events_id source hSource).symm
      cases sound.outboxIds.eq_of_key hSource hWaiting hSourceId
      obtain ⟨described, hPayload, hKey, hDescribes⟩ := hEvent
      have hRelayed : event = ({ described with traceparent := event.traceparent } :
          WorkerEvent).toDocumentUploaded := by
        rw [hCopy, hPayload]
      refine Or.inr (Or.inl ⟨⟨state.entries.length, event.streamFields setting.codec⟩, ?_, ?_⟩)
      · show _ ∈ (state.entries ++ [_]).drop state.delivered
        rw [List.drop_append_of_le_length sound.delivered]
        exact List.mem_append_right _ (List.mem_singleton_self _)
      · refine ⟨{ described with traceparent := event.traceparent }, ?_, hKey, hDescribes⟩
        rw [← WorkerEvent.modelValidate_streamFields lawful, ← hRelayed]
    · refine Or.inl ⟨waiting, hWaiting, hUnpublished, fun other hOther => ?_, hEvent⟩
      simp only [DeliveryState.setTransaction] at hOther
      split_ifs at hOther
      · rcases List.mem_append.mp hOther with hOld | hNew
        · exact hFree agent hOld
        · exact hSame (List.mem_singleton.mp hNew)
      · exact hFree other hOther
  · refine Or.inr (Or.inl ⟨entry, ?_, hDescribing⟩)
    show _ ∈ (state.entries ++ [_]).drop state.delivered
    rw [List.drop_append_of_le_length sound.delivered]
    exact List.mem_append_left _ hEntry
  · exact Or.inr (Or.inr ⟨entry, List.mem_append_left _ hEntry, hOpen, hDescribing⟩)

/-- A transaction that ends has published only what was not free. -/
theorem Secured.commit (h : Secured setting.codec state row) (sound : Sound setting.codec state)
    (hEffect : effect setting agent state choice .commit = some (.ok (), middle)) :
    Secured setting.codec middle row := by
  cases hEffect
  rcases h with ⟨waiting, hWaiting, hUnpublished, hFree, hEvent⟩ | hEntry | hOpen
  · refine Or.inl ⟨waiting, mem_updateWhere.mpr ⟨waiting, hWaiting, ?_⟩, hUnpublished,
      fun other hOther => ?_, hEvent⟩
    · rw [if_neg]
      intro hMarked
      exact hFree agent (sound.marked agent (List.contains_iff_mem.mp hMarked))
    · simp only [DeliveryState.endTransaction, DeliveryState.setTransaction] at hOther
      split_ifs at hOther
      · cases hOther
      · exact hFree other hOther
  · exact Or.inr (Or.inl hEntry)
  · exact Or.inr (Or.inr hOpen)

/-- No effect takes the last secured carrier of a document. -/
theorem effect_secures {own : Except Failure (Response request)}
    (sound : Sound setting.codec state) (lawful : setting.codec.Lawful)
    (reads : ReadsAnswer setting) (guard : Guard setting agent state request)
    (hRow : row ∈ state.database.documents) (h : Secured setting.codec state row)
    (hEffect : effect setting agent state choice request = some (own, middle)) :
    Secured setting.codec middle row := by
  have hAbandon : ∀ other, ((state.abandon agent).transactions other).published ⊆
      (state.transactions other).published := by
    intro other
    simp only [DeliveryState.abandon, DeliveryState.log, DeliveryState.endTransaction,
      DeliveryState.setTransaction]
    split_ifs
    · exact List.nil_subset _
    · exact List.Subset.refl _
  cases request with
  | stream command =>
      simp only [effect, Option.map_eq_some_iff] at hEffect
      obtain ⟨⟨answer, reached⟩, hCommand, hAfter⟩ := hEffect
      cases hAfter
      cases command with
      | readGroup =>
          cases hCommand
          exact h.readGroup sound.toQueued setting.batch rfl
      | autoClaim cursor =>
          simp only [streamEffect] at hCommand
          split_ifs at hCommand
          cases hCommand
          refine h.frame (List.Subset.refl _) (fun _ => List.Subset.refl _) List.prefix_rfl rfl ?_
            fun _ _ _ _ => id
          intro pending hPending
          refine ⟨_, mem_updateWhere.mpr ⟨pending, hPending, rfl⟩, ?_⟩
          split_ifs <;> rfl
      | acknowledge number =>
          simp only [streamEffect] at hCommand
          split at hCommand
          · cases hCommand
            exact h.acknowledge sound hRow reads guard _
          · cases hCommand
            exact h
      | _ =>
          cases hCommand
          exact h
  | markStatus tenantId id status error =>
      simp only [effect] at hEffect
      split at hEffect
      · cases hEffect
        exact h
      · cases hEffect
        exact h
  | upsertDocument tenantId filename document =>
      rcases upsertEffect_stores sound.unique hEffect with
        ⟨-, rfl⟩ | ⟨database, stored, -, -, -, -, hOutbox, rfl⟩
      · exact h
      · refine h.frame ?_ (fun _ => List.Subset.refl _) List.prefix_rfl rfl
          (fun pending hPending => ⟨pending, hPending, rfl⟩) fun _ _ _ _ => id
        rw [DeliveryState.store_database, hOutbox]
        exact List.Subset.refl _
  | begin tenantId =>
      cases hEffect
      refine h.frame (List.Subset.refl _) (fun other => ?_) List.prefix_rfl rfl
        (fun pending hPending => ⟨pending, hPending, rfl⟩) fun _ _ _ _ => id
      simp only [DeliveryState.setTransaction]
      split_ifs
      · exact List.nil_subset _
      · exact hAbandon other
  | publish event =>
      have hOwn : own = .ok () := by
        cases hEffect
        rfl
      rw [hOwn] at hEffect
      exact h.publish sound lawful guard hEffect
  | setPublished tenantId id =>
      cases hEffect
      refine h.frame (List.Subset.refl _) (fun other => ?_) List.prefix_rfl rfl
        (fun pending hPending => ⟨pending, hPending, rfl⟩) fun _ _ _ _ hSettled => hSettled
      by_cases hOther : other = agent
      · simp only [DeliveryState.setTransaction, hOther]
        exact List.Subset.refl _
      · simp only [DeliveryState.setTransaction, if_neg hOther]
        exact List.Subset.refl _
  | commit =>
      have hOwn : own = .ok () := by
        cases hEffect
        rfl
      rw [hOwn] at hEffect
      exact h.commit sound hEffect
  | rollback =>
      cases hEffect
      exact h.frame (List.Subset.refl _) hAbandon List.prefix_rfl rfl
        (fun pending hPending => ⟨pending, hPending, rfl⟩) fun _ _ _ _ => id
  | _ =>
      cases hEffect
      exact h

/-- A document in the rows after an effect was secured before, or the effect has marked it
as processing. -/
theorem AllSecured.effect {own : Except Failure (Response request)}
    (secured : AllSecured setting.codec state) (sound : Sound setting.codec state)
    (lawful : setting.codec.Lawful) (reads : ReadsAnswer setting)
    (guard : Guard setting agent state request)
    (hOutstanding : ∀ tenantId id error, request = .markStatus tenantId id .processing error →
      ∀ number, (state.attempts agent).entry = some number → Outstanding state number)
    (hEffect : effect setting agent state choice request = some (own, middle)) :
    AllSecured setting.codec middle := by
  have hOld {old : DocumentRow} (hMem : old ∈ state.database.documents)
      (hUnfinished : Unfinished old) : Secured setting.codec middle old :=
    effect_secures sound lawful reads guard hMem (secured old hMem hUnfinished) hEffect
  intro row hRow hUnfinished
  cases request with
  | markStatus tenantId id status error =>
      simp only [Delivery.effect] at hEffect
      split at hEffect
      · cases hEffect
        exact secured row hRow hUnfinished
      · rename_i found hFound
        cases hEffect
        rcases (markStatus_stores sound.unique hFound status error).others row hRow with
          rfl | hMem
        · obtain ⟨hUploaded, entry, event, working, hEvent⟩ := guard
          have hProcessing : status = .processing := hUnfinished.resolve_left hUploaded
          subst hProcessing
          obtain ⟨stored, hStored, hKey, hDescribes⟩ := working.stored
          obtain ⟨hFoundMem, hFoundKey⟩ := select_mem hFound
          have hSame : stored = found := sound.unique.eq_of_id hStored hFoundMem
            (congrArg Prod.snd (hKey.trans (hEvent.trans hFoundKey.symm)))
          rw [hSame] at hKey hDescribes
          exact Or.inr (Or.inr ⟨entry, working.received,
            hOutstanding tenantId id error rfl entry.id working.attempt, event, working.valid,
            hKey.symm, hDescribes⟩)
        · exact hOld hMem hUnfinished
  | upsertDocument tenantId filename document =>
      rcases upsertEffect_stores sound.unique hEffect with
        ⟨-, rfl⟩ | ⟨database, stored, -, stores, hStatus, -, -, rfl⟩
      · exact secured row hRow hUnfinished
      · rw [DeliveryState.store_database] at hRow
        rcases stores.others row hRow with rfl | hMem
        · rcases hUnfinished with h | h
          · cases hStatus.symm.trans h
          · cases hStatus.symm.trans h
        · exact hOld hMem hUnfinished
  | _ =>
      rw [(effect_documents hEffect (by intros; simp) (by intros; simp)).1] at hRow
      exact hOld hRow hUnfinished

/-- An error settles nothing. -/
theorem note_error_settled {error : Failure} {other number : Nat}
    (h : (note agent request (.error error) state).attempts other = ⟨some number, true⟩) :
    state.attempts other = ⟨some number, true⟩ := by
  cases request with
  | stream command =>
      cases command <;>
      · simp only [note, DeliveryState.setAttempt] at h
        split_ifs at h
        · cases h
        · exact h
  | _ => exact h

/-- Noting an answer moves no carrier; it settles at most the agent's own delivery. -/
theorem Secured.note (h : Secured setting.codec state row)
    (answer : Except Failure (Response request))
    (hSettled : ∀ entry ∈ state.entries, Describing setting.codec entry.fields row →
      (note agent request answer state).attempts agent = ⟨some entry.id, true⟩ →
        state.attempts agent = ⟨some entry.id, true⟩) :
    Secured setting.codec (note agent request answer state) row := by
  obtain ⟨attempt, history, hNote, -⟩ := note_cases agent request answer state
  rw [hNote] at hSettled ⊢
  refine h.frame (List.Subset.refl _) (fun _ => List.Subset.refl _) List.prefix_rfl rfl
    (fun pending hPending => ⟨pending, hPending, rfl⟩) ?_
  intro entry hEntry hDescribing other hOther
  by_cases hSame : other = agent
  · rw [hSame] at hOther ⊢
    exact hSettled entry hEntry hDescribing hOther
  · simpa only [DeliveryState.setAttempt, if_neg hSame] using hOther

/-- The delivery an agent is at names the document of its guard. -/
theorem Handles.names {entry other : StreamMessage} {event : WorkerEvent}
    (handles : Handles setting.codec agent entry event state) (queued : Queued state)
    (hOther : other ∈ state.entries) (hAttempt : (state.attempts agent).entry = some other.id)
    (hDescribing : Describing setting.codec other.fields row) :
    row.ownerKey = eventKey event := by
  obtain ⟨described, hValid, hKey, -⟩ := hDescribing
  have hId : other.id = entry.id := Option.some.inj (hAttempt.symm.trans handles.attempt)
  cases queued.entry_eq hOther handles.received hId
  cases hValid.symm.trans handles.valid
  exact hKey.symm

/-- An answered call settles a delivery only when its document is finished. -/
theorem note_unfinished {own : Except Failure (Response request)}
    (sound : Sound setting.codec state) (soundMiddle : Sound setting.codec middle)
    (guard : Guard setting agent state request)
    (hEffect : effect setting agent state choice request = some (own, middle))
    (hRow : row ∈ middle.database.documents) (hUnfinished : Unfinished row)
    {entry : StreamMessage} (hEntry : entry ∈ middle.entries)
    (hDescribing : Describing setting.codec entry.fields row)
    (hSettled : (note agent request own middle).attempts agent = ⟨some entry.id, true⟩) :
    middle.attempts agent = ⟨some entry.id, true⟩ := by
  have hAttempts : middle.attempts = state.attempts := (effect_quiet hEffect).1
  have hGrows := effect_grows sound.unique guard.upsertsKnown hEffect
  have hNames {other : StreamMessage} {event : WorkerEvent}
      (handles : Handles setting.codec agent other event state)
      (hAttempt : (middle.attempts agent).entry = some entry.id) :
      row.ownerKey = eventKey event := by
    have hMiddle : Handles setting.codec agent other event middle :=
      ⟨hGrows.mem handles.received, handles.delivered.trans_le hGrows.delivered, handles.valid,
        by rw [hAttempts]; exact handles.attempt⟩
    exact hMiddle.names soundMiddle.toQueued hEntry hAttempt hDescribing
  cases request with
  | stream command =>
      simp only [effect, Option.map_eq_some_iff] at hEffect
      obtain ⟨⟨answer, reached⟩, -, hAfter⟩ := hEffect
      cases hAfter
      cases command <;> simp [note] at hSettled <;> exact hSettled
  | getDocument tenantId id =>
      cases hEffect
      obtain ⟨other, event, handles, hKey⟩ := guard
      simp only [note, DeliveryState.setAttempt_self, Attempt.mk.injEq] at hSettled
      obtain ⟨hAttempt, hCompleted⟩ := hSettled
      have hRowKey : row.ownerKey = (tenantId, id) := (hNames handles hAttempt).trans hKey
      have hFound : state.database.findById tenantId id = some row := by
        obtain ⟨hTenant, hId⟩ := Prod.mk.inj hRowKey
        rw [← hTenant, ← hId]
        exact soundMiddle.unique.findById hRow
      rw [Database.getDocument, hFound] at hCompleted
      have hDone : row.status = .processed := (of_decide_eq_true hCompleted).1
      rcases hUnfinished with h | h
      · cases hDone.symm.trans h
      · cases hDone.symm.trans h
  | markStatus tenantId id status error =>
      simp only [effect] at hEffect
      split at hEffect
      · cases hEffect
        exact hSettled
      · rename_i found hFound
        cases hEffect
        simp only [note] at hSettled
        split_ifs at hSettled with hFinal
        · obtain ⟨-, other, event, working, hKey⟩ := guard
          simp only [DeliveryState.setAttempt_self, Attempt.mk.injEq] at hSettled
          have hRowKey : row.ownerKey = (tenantId, id) :=
            (hNames working.toHandles hSettled.1).trans hKey
          have hStores := markStatus_stores sound.unique hFound status error
          have hSame : row = statusRow status error found :=
            hStores.unique.eq_of_id hRow hStores.stored
              (congrArg Prod.snd (hRowKey.trans (select_mem hFound).2.symm))
          rw [hSame] at hUnfinished
          rcases hUnfinished with h | h
          · rcases hFinal with h' | h'
            · cases h.symm.trans h'
            · cases h.symm.trans h'
          · rcases hFinal with h' | h'
            · cases h.symm.trans h'
            · cases h.symm.trans h'
        · exact hSettled
  | _ => exact hSettled

theorem AllSecured.perform {answer : Except Failure (Response request)}
    (secured : AllSecured setting.codec state) (sound : Sound setting.codec state)
    (lawful : setting.codec.Lawful) (reads : ReadsAnswer setting)
    (guard : Guard setting agent state request)
    (hOutstanding : ∀ tenantId id error, request = .markStatus tenantId id .processing error →
      choice.Commits → ∀ number, (state.attempts agent).entry = some number →
      Outstanding state number)
    (h : perform setting agent state choice request = some (answer, after)) :
    AllSecured setting.codec after := by
  by_cases hCommits : choice.Commits
  · obtain ⟨own, middle, hEffect, rfl, hAnswer⟩ := perform_of_commits hCommits h
    have hMiddle : AllSecured setting.codec middle := secured.effect sound lawful reads guard
      (fun tenantId id error hRequest => hOutstanding tenantId id error hRequest hCommits) hEffect
    have soundMiddle := effect_sound sound guard hEffect
    intro row hRow hUnfinished
    rw [(note_documents agent request answer middle).1] at hRow
    refine (hMiddle row hRow hUnfinished).note answer fun entry hEntry hDescribing hSettled => ?_
    rcases hAnswer with rfl | ⟨error, rfl⟩
    · exact note_unfinished sound soundMiddle guard hEffect hRow hUnfinished hEntry hDescribing
        hSettled
    · exact note_error_settled hSettled
  · obtain ⟨rfl, error, rfl⟩ := perform_of_not_commits hCommits h
    intro row hRow hUnfinished
    rw [(note_documents agent request (.error error) state).1] at hRow
    exact (secured row hRow hUnfinished).note _ fun entry _ _ hSettled =>
      note_error_settled hSettled

/-- A registered document waits in the outbox, and no relay has published it. -/
theorem AllSecured.occur {event : Event} (secured : AllSecured setting.codec state)
    (sound : Sound setting.codec state) (h : occur state event = some after) :
    AllSecured setting.codec after := by
  intro row hRow hUnfinished
  cases event with
  | register upload =>
      rcases register_cases h with rfl | ⟨-, -, hFresh, rfl⟩
      · exact secured row hRow hUnfinished
      · rcases List.mem_append.mp hRow with hOld | hNew
        · refine (secured row hOld hUnfinished).frame ?_ (fun _ => List.Subset.refl _)
            List.prefix_rfl rfl (fun pending hPending => ⟨pending, hPending, rfl⟩)
            fun _ _ _ _ hSettled => hSettled
          exact List.subset_append_left _ _
        · rw [List.mem_singleton.mp hNew]
          refine Or.inl ⟨_, List.mem_append_right _ (List.mem_singleton_self _), rfl,
            fun agent hPublished => ?_, upload.event, rfl, rfl, rfl, rfl, rfl, rfl⟩
          obtain ⟨other, hOther, hId⟩ :=
            sound.row_of_count (sound.announced agent upload.eventId hPublished)
          exact select_eq_none.mp hFresh other hOther hId
  | append fields =>
      cases h
      exact (secured row hRow hUnfinished).frame (List.Subset.refl _)
        (fun _ => List.Subset.refl _) (List.prefix_append _ _) rfl
        (fun pending hPending => ⟨pending, hPending, rfl⟩) fun _ _ _ _ hSettled => hSettled

theorem AllSecured.crash (secured : AllSecured setting.codec state) (agent : Nat) :
    AllSecured setting.codec (crash agent state) := by
  intro row hRow hUnfinished
  refine (secured row hRow hUnfinished).frame (List.Subset.refl _) (fun other => ?_)
    List.prefix_rfl rfl (fun pending hPending => ⟨pending, hPending, rfl⟩) ?_
  · simp only [Delivery.crash, DeliveryState.setAttempt, DeliveryState.abandon, DeliveryState.log,
      DeliveryState.endTransaction, DeliveryState.setTransaction]
    split_ifs
    · exact List.nil_subset _
    · exact List.Subset.refl _
  · intro entry _ _ other hSettled
    simp only [Delivery.crash, DeliveryState.setAttempt] at hSettled
    split_ifs at hSettled
    · cases hSettled
    · exact hSettled

end Steps

section Runs
variable {setting : Setting} {processes : Nat → Process} {deployment next : Deployment}
  {move : Move}

theorem AllSecured.step (secured : AllSecured setting.codec deployment.state)
    (guarded : Guarded setting deployment) (lawful : setting.codec.Lawful)
    (reads : ReadsAnswer setting) (hMove : MarksOutstanding deployment move)
    (h : Delivery.step setting deployment move = some next) :
    AllSecured setting.codec next.state := by
  rcases step_cases h with ⟨agent, choice, request, rest, answer, rfl, hProgram, hPerform⟩ |
    ⟨agent, -, hCrash⟩ | ⟨event, -, hEvent⟩
  · apply secured.perform guarded.1 lawful reads
      (Discipline.PoolSafe.guard guarded hProgram) ?_ hPerform
    rintro tenantId id error rfl
    exact hMove tenantId id error rest hProgram
  · rw [hCrash]
    exact secured.crash agent
  · exact secured.occur guarded.1 hEvent

/-- No document is stranded in a run that marks documents as processing only for
outstanding deliveries, with a codec that reads what it writes and lookups that raise no
reference errors of their own. -/
theorem noneStranded_run {moves : List Move} {reached : Deployment}
    (lawful : setting.codec.Lawful) (reads : ReadsAnswer setting)
    (hMarks : Transition.Every (step setting) (fun point move _ => MarksOutstanding point move)
      moves (start setting processes))
    (hRun : Transition.run (step setting) moves (start setting processes) = some reached) :
    NoneStranded setting.codec reached.state := by
  have hBoth : Guarded setting reached ∧ AllSecured setting.codec reached.state := by
    refine @Transition.run_invariant_of_every _ _ (step setting)
      (fun point move _ => MarksOutstanding point move)
      (fun point => Guarded setting point ∧ AllSecured setting.codec point.state)
      ?_ _ _ _ ?_ hMarks hRun
    · rintro point move next ⟨guarded, secured⟩ hMove hStep
      exact ⟨guarded.step hStep, secured.step guarded lawful reads hMove hStep⟩
    · refine ⟨start_guarded setting processes, ?_⟩
      intro row hRow
      cases hRow
  exact hBoth.2.noneStranded

end Runs

/-- Whether a worker is about to change a status. -/
def isMarking (deployment : Deployment) : Move → Bool
  | .advance agent _ =>
      match deployment.programs agent with
      | some (.call (.markStatus _ _ _ _) _) => true
      | _ => false
  | _ => false

def marksNothing (setting : Setting) : List Move → Deployment → Bool
  | [], _ => true
  | move :: rest, deployment =>
      !isMarking deployment move && (step setting deployment move).all (marksNothing setting rest)

theorem every_of_marksNothing {setting : Setting} {moves : List Move} {deployment : Deployment}
    (h : marksNothing setting moves deployment = true) :
    Transition.Every (step setting) (fun point move _ => MarksOutstanding point move) moves
      deployment := by
  induction moves generalizing deployment with
  | nil => trivial
  | cons move rest ih =>
      intro next hStep
      simp only [marksNothing, hStep, Option.all_some, Bool.and_eq_true] at h
      refine ⟨?_, ih h.2⟩
      cases move with
      | advance agent choice =>
          intro tenantId id error program hProgram
          simp [isMarking, hProgram] at h
      | crash agent => trivial
      | event event => trivial

/-- The agent whose call or crash a move is. -/
def mover : Move → Option Nat
  | .advance agent _ | .crash agent => some agent
  | .event _ => none

/-- An agent that does not move stays at the delivery it is at. -/
theorem attempts_of_unmoved {setting : Setting} {agent : Nat} {moves : List Move}
    {deployment reached : Deployment} (hMoves : ∀ move ∈ moves, mover move ≠ some agent)
    (hRun : Transition.run (step setting) moves deployment = some reached) :
    reached.state.attempts agent = deployment.state.attempts agent := by
  induction moves generalizing deployment with
  | nil =>
      cases hRun
      rfl
  | cons move rest ih =>
      obtain ⟨middle, hStep, hRest⟩ := (Transition.run_cons_eq_some (step setting)).mp hRun
      have hOther := hMoves move List.mem_cons_self
      have hSpared : Spares agent deployment.state middle.state := by
        rcases step_cases hStep with ⟨other, _, _, _, _, rfl, -, hPerform⟩ | ⟨other, rfl, hCrash⟩ |
          ⟨event, rfl, hEvent⟩
        · exact perform_spares (fun h => hOther (congrArg some h.symm)) hPerform
        · rw [hCrash]
          exact crash_spares (fun h => hOther (congrArg some h.symm)) deployment.state
        · exact occur_spares agent hEvent
      rw [ih (fun other hMem => hMoves other (List.mem_cons_of_mem _ hMem)) hRest, hSpared.attempt]

/-- The first worker marks the document in time, and then crashes. -/
def markedMoves : List Move := [.advance 1 calm, .crash 1]

theorem marked_outstanding {point : Deployment}
    (hRun : Transition.run (step sampleSetting) lookupMoves
      (start sampleSetting sampleProcesses) = some point) :
    MarksOutstanding point (.advance 1 calm) := by
  have hState : (Transition.run (step sampleSetting) lookupMoves
      (start sampleSetting sampleProcesses)).map (fun reached =>
        (reached.state.pending, reached.state.attempts 0, reached.state.attempts 1)) =
      some ([⟨0, 1⟩], {}, ⟨some 0, false⟩) := by decide +kernel
  rw [hRun, Option.map_some, Option.some.injEq, Prod.mk.injEq, Prod.mk.injEq] at hState
  obtain ⟨hPending, hRelay, hWorker⟩ := hState
  intro tenantId id error next _ _ number hNumber
  rw [hWorker] at hNumber
  cases hNumber
  refine ⟨⟨⟨0, 1⟩, by rw [hPending]; exact List.mem_singleton_self _, rfl⟩, fun agent hSettled => ?_⟩
  by_cases hFirst : agent = 0
  · rw [hFirst, hRelay] at hSettled
    cases hSettled
  · by_cases hSecond : agent = 1
    · rw [hSecond, hWorker] at hSettled
      cases hSettled
    · have hMovers : ∀ move ∈ lookupMoves, mover move = none ∨ mover move = some 0 ∨
          mover move = some 1 := by decide
      have hUnmoved (move : Move) (hMove : move ∈ lookupMoves) : mover move ≠ some agent := by
        intro hMover
        rcases hMovers move hMove with h | h | h
        · cases h.symm.trans hMover
        · exact hFirst (Option.some_inj.mp (hMover.symm.trans h))
        · exact hSecond (Option.some_inj.mp (hMover.symm.trans h))
      rw [attempts_of_unmoved hUnmoved hRun] at hSettled
      cases hSettled

/-- A document that is marked for an outstanding delivery keeps it when the worker crashes. -/
theorem noneStranded_run_marked :
    ∃ reached, Transition.run (step sampleSetting) (lookupMoves ++ markedMoves)
        (start sampleSetting sampleProcesses) = some reached ∧
      reached.state.database.documents.map DocumentRow.status = [.processing] ∧
      reached.state.pending = [⟨0, 1⟩] ∧ NoneStranded sampleSetting.codec reached.state := by
  have hMarked : (Transition.run (step sampleSetting) (lookupMoves ++ markedMoves)
      (start sampleSetting sampleProcesses)).map (fun reached =>
        (reached.state.database.documents.map DocumentRow.status, reached.state.pending)) =
      some ([.processing], [⟨0, 1⟩]) := by decide +kernel
  have hNone : marksNothing sampleSetting lookupMoves (start sampleSetting sampleProcesses) =
      true := by decide +kernel
  obtain ⟨reached, hRun, hReached⟩ := Option.map_eq_some_iff.mp hMarked
  obtain ⟨hStatus, hPending⟩ := Prod.mk.inj hReached
  have hReads : ReadsAnswer sampleSetting := fun _ _ _ h => by cases h
  have hMarks : Transition.Every (step sampleSetting)
      (fun point move _ => MarksOutstanding point move) (lookupMoves ++ markedMoves)
      (start sampleSetting sampleProcesses) := by
    refine (Transition.every_append (step sampleSetting)).mpr
      ⟨every_of_marksNothing hNone, fun point hPoint next _ => ⟨marked_outstanding hPoint, ?_⟩⟩
    exact fun _ _ => ⟨trivial, trivial⟩
  exact ⟨reached, hRun, hStatus, hPending,
    noneStranded_run libraryCodec_lawful hReads hMarks hRun⟩

/-- The first worker's late mark leaves the document processing with nothing that carries
work for it, and then the worker crashes. -/
theorem lateMark_strands :
    ∃ reached, Transition.run (step sampleSetting) (lateMarkMoves ++ [.crash 1])
        (start sampleSetting sampleProcesses) = some reached ∧
      ¬ NoneStranded sampleSetting.codec reached.state := by
  have hReached : (Transition.run (step sampleSetting) (lateMarkMoves ++ [.crash 1])
      (start sampleSetting sampleProcesses)).map (fun reached =>
        (reached.state.database.documents.map DocumentRow.status,
          reached.state.database.outbox.map OutboxRow.publishedAt,
          reached.state.entries.drop reached.state.delivered, reached.state.pending)) =
      some ([.processing], [some 0], [], []) := by decide +kernel
  obtain ⟨reached, hRun, hFacts⟩ := Option.map_eq_some_iff.mp hReached
  simp only [Prod.mk.injEq] at hFacts
  obtain ⟨hStatus, hOutbox, hEntries, hPending⟩ := hFacts
  obtain ⟨row, hRows, hRow⟩ := List.map_eq_singleton_iff.mp hStatus
  refine ⟨reached, hRun, fun hNone => ?_⟩
  rcases hNone row (by rw [hRows]; exact List.mem_singleton_self _) (Or.inr hRow) with
    ⟨waiting, hWaiting, hUnpublished, -⟩ | ⟨entry, hEntry, -⟩ | ⟨pending, hMem, -⟩
  · have hPublished := List.mem_map_of_mem (f := OutboxRow.publishedAt) hWaiting
    rw [hOutbox, hUnpublished] at hPublished
    cases List.mem_singleton.mp hPublished
  · rw [hEntries] at hEntry
    cases hEntry
  · rw [hPending] at hMem
    cases hMem

end DocInsight.Delivery
