import DocInsight.Delivery.System

/-! What every call and event leaves standing: entries and history only grow, and rows
keep their identity. -/
namespace DocInsight.Delivery

open DocInsight.Contracts DocInsight.Worker Interaction Table

/-- The latest answer an agent had about a document. -/
def lastLookup (agent : Nat) : List Logged → Option DocumentRow
  | [] => none
  | .looked other found :: rest => if other = agent then found else lastLookup agent rest
  | _ :: rest => lastLookup agent rest

/-- Every row lives on with its identity and its media type. -/
def Continues (before after : List DocumentRow) : Prop :=
  ∀ row ∈ before, ∃ later ∈ after, SameIdentity row later ∧ later.mediaType = row.mediaType

theorem Continues.refl (rows : List DocumentRow) : Continues rows rows :=
  fun row hRow => ⟨row, hRow, SameIdentity.refl row, rfl⟩

theorem Continues.trans {first second third : List DocumentRow} (h : Continues first second)
    (h' : Continues second third) : Continues first third := by
  intro row hRow
  obtain ⟨middle, hMiddle, hSame, hMedia⟩ := h row hRow
  obtain ⟨later, hLater, hSame', hMedia'⟩ := h' middle hMiddle
  exact ⟨later, hLater, hSame.trans hSame', hMedia'.trans hMedia⟩

theorem Continues.append (rows : List DocumentRow) (row : DocumentRow) :
    Continues rows (rows ++ [row]) :=
  fun row hRow => ⟨row, List.mem_append_left _ hRow, SameIdentity.refl row, rfl⟩

theorem Continues.update {rows : List DocumentRow} {condition : DocumentRow → Bool}
    {change : DocumentRow → DocumentRow} (hSame : ∀ row, SameIdentity row (change row))
    (hMedia : ∀ row ∈ rows, condition row = true → (change row).mediaType = row.mediaType) :
    Continues rows (updateWhere condition change rows) := by
  intro row hRow
  refine ⟨_, mem_updateWhere.mpr ⟨row, hRow, rfl⟩, ?_, ?_⟩
  · split_ifs
    · exact hSame row
    · exact SameIdentity.refl row
  · split_ifs with hCondition
    · exact hMedia row hRow hCondition
    · rfl

/-- An event under its identifier and its tenant in the outbox. -/
abbrev outboxEvent (row : OutboxRow) : UUID × String × DocumentUploaded :=
  (row.id, row.tenantId, row.payload)

/-- What only grows. -/
structure Grows (before after : DeliveryState) : Prop where
  entries : before.entries <+: after.entries
  delivered : before.delivered ≤ after.delivered
  history : before.history <:+ after.history
  documents : Continues before.database.documents after.database.documents
  outbox : before.database.outbox.map outboxEvent <+: after.database.outbox.map outboxEvent

theorem Grows.refl (state : DeliveryState) : Grows state state :=
  ⟨List.prefix_rfl, le_rfl, List.suffix_rfl, Continues.refl _, List.prefix_rfl⟩

theorem Grows.trans {first second third : DeliveryState} (h : Grows first second)
    (h' : Grows second third) : Grows first third :=
  ⟨h.entries.trans h'.entries, h.delivered.trans h'.delivered, h.history.trans h'.history,
    h.documents.trans h'.documents, h.outbox.trans h'.outbox⟩

/-- An outbox row lives on with its event. -/
theorem Grows.outboxRow {before after : DeliveryState} (h : Grows before after) {row : OutboxRow}
    (hRow : row ∈ before.database.outbox) :
    ∃ later ∈ after.database.outbox, outboxEvent later = outboxEvent row :=
  List.mem_map.mp (h.outbox.subset (List.mem_map_of_mem hRow))

theorem Grows.mem {before after : DeliveryState} (h : Grows before after) {entry : StreamMessage}
    (hEntry : entry ∈ before.entries) : entry ∈ after.entries :=
  h.entries.subset hEntry

/-- What others leave alone: an agent's attempt, its transaction with its locks and its
last lookup. -/
structure Spares (agent : Nat) (before after : DeliveryState) : Prop where
  attempt : after.attempts agent = before.attempts agent
  transaction : after.transactions agent = before.transactions agent
  locks : ∀ id, (agent, id) ∈ after.locks ↔ (agent, id) ∈ before.locks
  lookup : lastLookup agent after.history = lastLookup agent before.history

theorem Spares.refl (agent : Nat) (state : DeliveryState) : Spares agent state state :=
  ⟨rfl, rfl, fun _ => Iff.rfl, rfl⟩

theorem Spares.trans {agent : Nat} {first second third : DeliveryState}
    (h : Spares agent first second) (h' : Spares agent second third) :
    Spares agent first third :=
  ⟨h'.attempt.trans h.attempt, h'.transaction.trans h.transaction,
    fun id => (h'.locks id).trans (h.locks id), h'.lookup.trans h.lookup⟩

theorem setAttempt_attempts (agent : Nat) (state : DeliveryState) :
    state.setAttempt agent (state.attempts agent) = state := by
  unfold DeliveryState.setAttempt
  congr 1
  funext other
  split_ifs with hSame
  · rw [hSame]
  · rfl

/-- Noting an answer changes the agent's own attempt, and logs a lookup. -/
theorem note_cases (agent : Nat) (request : Call) (answer : Except Failure (Response request))
    (state : DeliveryState) :
    ∃ attempt history, note agent request answer state =
        ({ state with history } : DeliveryState).setAttempt agent attempt ∧
      (history = state.history ∨ ∃ found, history = .looked agent found :: state.history) := by
  unfold note
  split
  · exact ⟨_, state.history, rfl, Or.inl rfl⟩
  · exact ⟨_, state.history, rfl, Or.inl rfl⟩
  · exact ⟨_, state.history, rfl, Or.inl rfl⟩
  · exact ⟨_, _, rfl, Or.inr ⟨_, rfl⟩⟩
  · refine ⟨state.attempts agent, .looked agent none :: state.history, ?_, Or.inr ⟨none, rfl⟩⟩
    exact (setAttempt_attempts agent (state.log (.looked agent none))).symm
  · split_ifs
    · exact ⟨_, state.history, rfl, Or.inl rfl⟩
    · exact ⟨state.attempts agent, state.history, (setAttempt_attempts agent state).symm, Or.inl rfl⟩
  · exact ⟨state.attempts agent, state.history, (setAttempt_attempts agent state).symm, Or.inl rfl⟩

theorem note_grows (agent : Nat) (request : Call) (answer : Except Failure (Response request))
    (state : DeliveryState) : Grows state (note agent request answer state) := by
  obtain ⟨attempt, history, hNote, hHistory⟩ := note_cases agent request answer state
  rw [hNote]
  refine ⟨List.prefix_rfl, le_rfl, ?_, Continues.refl _, List.prefix_rfl⟩
  rcases hHistory with rfl | ⟨found, rfl⟩
  · exact List.suffix_rfl
  · exact List.suffix_cons _ _

theorem note_spares {agent other : Nat} (hOther : other ≠ agent) (request : Call)
    (answer : Except Failure (Response request)) (state : DeliveryState) :
    Spares other state (note agent request answer state) := by
  obtain ⟨attempt, history, hNote, hHistory⟩ := note_cases agent request answer state
  rw [hNote]
  refine ⟨if_neg hOther, rfl, fun _ => Iff.rfl, ?_⟩
  rcases hHistory with rfl | ⟨found, rfl⟩
  · rfl
  · exact if_neg (Ne.symm hOther)

/-- A document that is upserted is known: its row has the same content and type. -/
def UpsertsKnown (state : DeliveryState) : Call → Prop
  | .upsertDocument tenantId _ document => ∃ row ∈ state.database.documents,
      row.tenantId = tenantId ∧ row.sha256 = document.sha256 ∧
        row.mediaType = document.mediaType
  | _ => True

section Effect
variable {setting : Setting} {agent : Nat} {state middle : DeliveryState} {choice : Choice}

/-- What a command on the stream does to the state, by its parts. -/
theorem streamEffect_cases {command : StreamCommand} {answer : command.Answer}
    (h : streamEffect setting agent state choice command = some (answer, middle)) :
    ∃ delivered pending deadLetters history, middle =
        { state with delivered, pending, deadLetters, history } ∧ state.delivered ≤ delivered ∧
      (history = state.history ∨ (∃ fields, history = .deadLettered agent fields :: state.history) ∨
        ∃ entry, history = .acknowledged agent entry :: state.history) := by
  cases command with
  | createGroup =>
      cases h
      exact ⟨_, _, _, _, rfl, le_rfl, Or.inl rfl⟩
  | heartbeat =>
      cases h
      exact ⟨_, _, _, _, rfl, le_rfl, Or.inl rfl⟩
  | readGroup =>
      cases h
      exact ⟨_, _, _, _, rfl, Nat.le_add_right _ _, Or.inl rfl⟩
  | autoClaim cursor =>
      simp only [streamEffect] at h
      split_ifs at h
      cases h
      exact ⟨_, _, _, _, rfl, le_rfl, Or.inl rfl⟩
  | pending id =>
      cases h
      exact ⟨_, _, _, _, rfl, le_rfl, Or.inl rfl⟩
  | addDeadLetter fields =>
      cases h
      exact ⟨_, _, _, _, rfl, le_rfl, Or.inr (Or.inl ⟨fields, rfl⟩)⟩
  | acknowledge id =>
      simp only [streamEffect] at h
      split at h
      · cases h
        exact ⟨_, _, _, _, rfl, le_rfl, Or.inr (Or.inr ⟨_, rfl⟩)⟩
      · cases h
        exact ⟨_, _, _, _, rfl, le_rfl, Or.inl rfl⟩

/-- What an upsert does: it stores the row it found with its output replaced, or a new
row. -/
theorem upsertEffect_cases {tenantId filename : String} {document : Document}
    {answer : Except Failure Unit}
    (h : effect setting agent state choice (.upsertDocument tenantId filename document) =
      some (answer, middle)) :
    (answer = .error (.value "ValueError") ∧ middle = state) ∨
    ∃ record row, prepareDocument tenantId filename document choice.identifier choice.now =
        .ok record ∧ answer = .ok () ∧
      ((state.database.findByContent tenantId document.sha256 = none ∧
          select DocumentRow.id choice.identifier state.database.documents = none ∧
          row = insertedRow record.toDocumentRow choice.now) ∨
        ∃ old, state.database.findByContent tenantId document.sha256 = some old ∧
          row = replacedRow record.toDocumentRow choice.now old) ∧
      middle = state.store (state.database.upsertDocument setting.uuid5 record choice.now)
        (some row) := by
  simp only [effect] at h
  cases hPrepared : prepareDocument tenantId filename document choice.identifier choice.now with
  | error error =>
      rw [hPrepared] at h
      cases h
      exact Or.inl ⟨rfl, rfl⟩
  | ok record =>
      rw [hPrepared] at h
      simp only at h
      split_ifs at h with hFresh
      cases h
      have hRecord := prepareDocument_ok hPrepared
      have hTenant : record.tenantId = tenantId := by rw [hRecord]
      have hDigest : record.sha256 = document.sha256 := by rw [hRecord]
      have hStored := Database.findByContent_upsertDocument state.database setting.uuid5 record
        choice.now
      rw [hTenant, hDigest] at hStored
      refine Or.inr ⟨record, ?_⟩
      cases hFound : state.database.findByContent tenantId document.sha256 with
      | some old =>
          rw [hFound] at hStored
          refine ⟨_, rfl, rfl, Or.inr ⟨old, rfl, rfl⟩, ?_⟩
          rw [hStored]
      | none =>
          rw [hFound] at hStored hFresh
          refine ⟨_, rfl, rfl, Or.inl ⟨rfl, ?_, rfl⟩, ?_⟩
          · simpa using hFresh
          · rw [hStored]

variable {request : Call} {own : Except Failure (Response request)}

/-- Ending a transaction releases no lock of another. -/
theorem mem_locks_end {other : Nat} (hOther : other ≠ agent) {id : UUID} :
    (other, id) ∈ (state.endTransaction agent).locks ↔ (other, id) ∈ state.locks := by
  simp [DeliveryState.endTransaction, DeliveryState.setTransaction, hOther]

/-- An effect leaves all attempts and lookups, and the transactions of others. -/
theorem effect_quiet (h : effect setting agent state choice request = some (own, middle)) :
    middle.attempts = state.attempts ∧
      (∀ other, lastLookup other middle.history = lastLookup other state.history) ∧
      ∀ other, other ≠ agent → middle.transactions other = state.transactions other ∧
        ∀ id, (other, id) ∈ middle.locks ↔ (other, id) ∈ state.locks := by
  cases request with
  | outside query =>
      cases h
      exact ⟨rfl, fun _ => rfl, fun _ _ => ⟨rfl, fun _ => Iff.rfl⟩⟩
  | stream command =>
      simp only [effect, Option.map_eq_some_iff] at h
      obtain ⟨⟨answer, after⟩, hEffect, hAfter⟩ := h
      cases hAfter
      obtain ⟨delivered, pending, deadLetters, history, rfl, -, hHistory⟩ :=
        streamEffect_cases hEffect
      refine ⟨rfl, fun other => ?_, fun _ _ => ⟨rfl, fun _ => Iff.rfl⟩⟩
      rcases hHistory with rfl | ⟨fields, rfl⟩ | ⟨entry, rfl⟩
      · rfl
      · rfl
      · rfl
  | getDocument tenantId id =>
      cases h
      exact ⟨rfl, fun _ => rfl, fun _ _ => ⟨rfl, fun _ => Iff.rfl⟩⟩
  | markStatus tenantId id status error =>
      simp only [effect] at h
      split at h
      · cases h
        exact ⟨rfl, fun _ => rfl, fun _ _ => ⟨rfl, fun _ => Iff.rfl⟩⟩
      · cases h
        exact ⟨rfl, fun _ => rfl, fun _ _ => ⟨rfl, fun _ => Iff.rfl⟩⟩
  | upsertDocument tenantId filename document =>
      rcases upsertEffect_cases h with ⟨-, rfl⟩ | ⟨record, row, -, -, -, rfl⟩
      · exact ⟨rfl, fun _ => rfl, fun _ _ => ⟨rfl, fun _ => Iff.rfl⟩⟩
      · exact ⟨rfl, fun _ => rfl, fun _ _ => ⟨rfl, fun _ => Iff.rfl⟩⟩
  | begin tenantId =>
      cases h
      exact ⟨rfl, fun _ => rfl, fun other hOther =>
        ⟨(if_neg hOther).trans (if_neg hOther), fun id => mem_locks_end hOther⟩⟩
  | selectPending tenantId batch =>
      cases h
      refine ⟨rfl, fun _ => rfl, fun other hOther => ⟨rfl, fun id => ?_⟩⟩
      simp [Ne.symm hOther]
  | publish event =>
      cases h
      exact ⟨rfl, fun _ => rfl, fun other hOther => ⟨if_neg hOther, fun _ => Iff.rfl⟩⟩
  | setPublished tenantId id =>
      cases h
      exact ⟨rfl, fun _ => rfl, fun other hOther => ⟨if_neg hOther, fun _ => Iff.rfl⟩⟩
  | commit =>
      cases h
      exact ⟨rfl, fun _ => rfl, fun other hOther =>
        ⟨if_neg hOther, fun id => mem_locks_end hOther⟩⟩
  | rollback =>
      cases h
      exact ⟨rfl, fun _ => rfl, fun other hOther =>
        ⟨if_neg hOther, fun id => mem_locks_end hOther⟩⟩

/-- Entries and history grow, and rows live on, when upserts are of known documents. -/
theorem effect_grows (unique : state.database.Unique) (known : UpsertsKnown state request)
    (h : effect setting agent state choice request = some (own, middle)) :
    Grows state middle := by
  cases request with
  | outside query =>
      cases h
      exact Grows.refl state
  | stream command =>
      simp only [effect, Option.map_eq_some_iff] at h
      obtain ⟨⟨answer, after⟩, hEffect, hAfter⟩ := h
      cases hAfter
      obtain ⟨delivered, pending, deadLetters, history, rfl, hDelivered, hHistory⟩ :=
        streamEffect_cases hEffect
      refine ⟨List.prefix_rfl, hDelivered, ?_, Continues.refl _, List.prefix_rfl⟩
      rcases hHistory with rfl | ⟨fields, rfl⟩ | ⟨entry, rfl⟩
      · exact List.suffix_rfl
      · exact List.suffix_cons _ _
      · exact List.suffix_cons _ _
  | getDocument tenantId id =>
      cases h
      exact Grows.refl state
  | markStatus tenantId id status error =>
      simp only [effect] at h
      split at h
      · cases h
        exact Grows.refl state
      · cases h
        refine ⟨List.prefix_rfl, le_rfl, List.suffix_cons _ _, ?_, List.prefix_rfl⟩
        exact Continues.update (sameIdentity_statusRow status error) fun _ _ _ => rfl
  | upsertDocument tenantId filename document =>
      rcases upsertEffect_cases h with ⟨-, rfl⟩ | ⟨record, row, hPrepared, -, -, rfl⟩
      · exact Grows.refl _
      · refine ⟨List.prefix_rfl, le_rfl, List.suffix_cons _ _, ?_, ?_⟩
        · obtain ⟨old, hOld, rfl, hDigest, hMedia⟩ := known
          have hRecord := prepareDocument_ok hPrepared
          have hFound : state.database.findByContent record.tenantId record.sha256 = some old := by
            have hSelf := unique.findByContent hOld
            rw [hDigest] at hSelf
            rw [hRecord]
            exact hSelf
          rw [DeliveryState.store_database, Database.upsertDocument_documents, Database.upsertRow_found hFound]
          apply Continues.update (sameIdentity_replacedRow record.toDocumentRow choice.now)
          intro other hOther hCondition
          have hSame : other = old := by
            refine unique.contents.eq_of_key hOther hOld ?_
            rw [of_decide_eq_true hCondition, hRecord]
            simp [DocumentRow.contentKey, hDigest]
          rw [hSame, hMedia, hRecord]
          rfl
        · exact ⟨[], by simp [DeliveryState.store_database, Database.upsertDocument_outbox]⟩
  | begin tenantId =>
      cases h
      exact ⟨List.prefix_rfl, le_rfl, List.suffix_cons _ _, Continues.refl _, List.prefix_rfl⟩
  | selectPending tenantId batch =>
      cases h
      exact ⟨List.prefix_rfl, le_rfl, List.suffix_rfl, Continues.refl _, List.prefix_rfl⟩
  | publish event =>
      cases h
      exact ⟨List.prefix_append _ _, le_rfl, List.suffix_cons _ _, Continues.refl _, List.prefix_rfl⟩
  | setPublished tenantId id =>
      cases h
      exact ⟨List.prefix_rfl, le_rfl, List.suffix_rfl, Continues.refl _, List.prefix_rfl⟩
  | commit =>
      cases h
      refine ⟨List.prefix_rfl, le_rfl, List.suffix_rfl, Continues.refl _, ?_⟩
      have hSame : (updateWhere (fun row => (state.transactions agent).marked.contains row.id)
          (fun row => { row with publishedAt := some choice.now })
          state.database.outbox).map outboxEvent = state.database.outbox.map outboxEvent :=
        map_key_updateWhere _ fun _ _ => rfl
      exact hSame.symm ▸ List.prefix_rfl
  | rollback =>
      cases h
      exact ⟨List.prefix_rfl, le_rfl, List.suffix_cons _ _, Continues.refl _, List.prefix_rfl⟩

end Effect

section Perform
variable {setting : Setting} {agent : Nat} {state after : DeliveryState} {choice : Choice}
  {request : Call} {answer : Except Failure (Response request)}

/-- A call that is answered: it took its effect and was answered for it, or with an error
that it may raise; or it took none, and was answered with such an error. -/
theorem perform_cases (h : perform setting agent state choice request = some (answer, after)) :
    ∃ middle, after = note agent request answer middle ∧
      ((middle = state ∧ ∃ error, answer = .error error ∧ setting.raises request error = true) ∨
        ∃ own, effect setting agent state choice request = some (own, middle) ∧
          (answer = own ∨ ∃ error, answer = .error error ∧
            setting.raises request error = true)) := by
  unfold perform at h
  cases hEffect : effect setting agent state choice request with
  | none =>
      rw [hEffect] at h
      cases h
  | some effected =>
      obtain ⟨own, middle⟩ := effected
      rw [hEffect] at h
      simp only at h
      cases hFailure : choice.failure with
      | none =>
          rw [hFailure] at h
          cases h
          exact ⟨middle, rfl, Or.inr ⟨answer, rfl, Or.inl rfl⟩⟩
      | some failure =>
          obtain ⟨error, taken⟩ := failure
          rw [hFailure] at h
          simp only at h
          split_ifs at h with hRaises hTaken
          · cases h
            exact ⟨middle, rfl, Or.inr ⟨own, rfl, Or.inr ⟨error, rfl, hRaises⟩⟩⟩
          · cases h
            exact ⟨state, rfl, Or.inl ⟨rfl, error, rfl, hRaises⟩⟩

theorem perform_grows (unique : state.database.Unique) (known : UpsertsKnown state request)
    (h : perform setting agent state choice request = some (answer, after)) :
    Grows state after := by
  obtain ⟨middle, rfl, hMiddle⟩ := perform_cases h
  refine Grows.trans ?_ (note_grows agent request answer middle)
  rcases hMiddle with ⟨rfl, -⟩ | ⟨own, hEffect, -⟩
  · exact Grows.refl _
  · exact effect_grows unique known hEffect

theorem perform_spares {other : Nat} (hOther : other ≠ agent)
    (h : perform setting agent state choice request = some (answer, after)) :
    Spares other state after := by
  obtain ⟨middle, rfl, hMiddle⟩ := perform_cases h
  refine Spares.trans ?_ (note_spares hOther request answer middle)
  rcases hMiddle with ⟨rfl, -⟩ | ⟨own, hEffect, -⟩
  · exact Spares.refl other _
  · obtain ⟨hAttempts, hLookups, hTransactions⟩ := effect_quiet hEffect
    obtain ⟨hTransaction, hLocks⟩ := hTransactions other hOther
    exact ⟨congrFun hAttempts other, hTransaction, hLocks, hLookups other⟩

end Perform

section Outside
variable {state after : DeliveryState}

/-- A registration changes nothing, or stores a new row with its event. -/
theorem register_cases {upload : Upload} (h : occur state (.register upload) = some after) :
    after = state ∨
      (state.database.findByContent upload.tenantId upload.sha256 = none ∧
        select DocumentRow.id upload.documentId state.database.documents = none ∧
        select OutboxRow.id upload.eventId state.database.outbox = none ∧
        after = state.store
          { state.database with
            documents := state.database.documents ++ [upload.record]
            outbox := state.database.outbox ++
              [{ id := upload.eventId, tenantId := upload.tenantId,
                 aggregateId := upload.documentId, payload := upload.event.toDocumentUploaded,
                 createdAt := upload.createdAt }] }
          (some upload.record)) := by
  simp only [occur] at h
  cases hFound : state.database.findByContent upload.tenantId upload.sha256 with
  | some row =>
      rw [hFound] at h
      cases h
      exact Or.inl rfl
  | none =>
      rw [hFound] at h
      simp only [Option.isNone_iff_eq_none] at h
      split_ifs at h with hFresh
      cases h
      have hRecord : state.database.findByContent upload.record.tenantId upload.record.sha256 =
          none := hFound
      rw [Database.register, hRecord]
      exact Or.inr ⟨rfl, hFresh.1, hFresh.2, rfl⟩

theorem occur_grows {event : Event} (h : occur state event = some after) : Grows state after := by
  cases event with
  | register upload =>
      rcases register_cases h with rfl | ⟨-, -, -, rfl⟩
      · exact Grows.refl _
      · refine ⟨List.prefix_rfl, le_rfl, List.suffix_cons _ _, Continues.append _ _, ?_⟩
        simp only [DeliveryState.store_database, List.map_append]
        exact List.prefix_append _ _
  | append fields =>
      cases h
      exact ⟨List.prefix_append _ _, le_rfl, List.suffix_rfl, Continues.refl _, List.prefix_rfl⟩

theorem occur_spares {event : Event} (agent : Nat) (h : occur state event = some after) :
    Spares agent state after := by
  cases event with
  | register upload =>
      rcases register_cases h with rfl | ⟨-, -, -, rfl⟩
      · exact Spares.refl agent _
      · exact ⟨rfl, rfl, fun _ => Iff.rfl, rfl⟩
  | append fields =>
      cases h
      exact ⟨rfl, rfl, fun _ => Iff.rfl, rfl⟩

theorem crash_grows (agent : Nat) (state : DeliveryState) : Grows state (crash agent state) :=
  ⟨List.prefix_rfl, le_rfl, List.suffix_cons _ _, Continues.refl _, List.prefix_rfl⟩

theorem crash_spares {agent other : Nat} (hOther : other ≠ agent) (state : DeliveryState) :
    Spares other state (crash agent state) :=
  ⟨if_neg hOther, if_neg hOther, fun _ => mem_locks_end hOther, rfl⟩

end Outside

end DocInsight.Delivery
