import DocInsight.Delivery.Soundness

/-! Every worker meets the guard of each of its calls, whatever the answers are and
whatever others do in between. -/
namespace DocInsight.Delivery

open DocInsight.Contracts DocInsight.Worker Interaction Discipline Table

section Calls
variable {setting : Setting} {agent : Nat} {state now after : DeliveryState} {choice : Choice}

theorem Keeps.of_rely (h : (knowledge setting).Rely agent state now) : Keeps agent state now :=
  Keeps.of_spares h.1 h.2

/-- One call, made with its guard: the postcondition holds of the answer that its effect
gives, and of an error raised with or without that effect. -/
theorem safe_call (request : Call)
    {post : Except Failure (Response request) → DeliveryState → Prop}
    (hGuard : ∀ now, (knowledge setting).Rely agent state now → Sound setting.codec now →
      Guard setting agent now request)
    (hRaised : ∀ now middle choice error, (knowledge setting).Rely agent state now →
      setting.raises request error = true →
      (middle = now ∨ ∃ own, effect setting agent now choice request = some (own, middle)) →
      post (.error error) (note agent request (.error error) middle))
    (hEffect : ∀ now middle choice answer, (knowledge setting).Rely agent state now →
      Sound setting.codec now → effect setting agent now choice request = some (answer, middle) →
      post answer (note agent request answer middle)) :
    (knowledge setting).Safe agent (call request) post state := by
  apply Safe.perform
  intro now hRely sound
  refine ⟨hGuard now hRely sound, fun choice answer after hPerform _ => ?_⟩
  have hCases : perform setting agent now choice request = some (answer, after) := hPerform
  obtain ⟨middle, rfl, ⟨rfl, error, rfl, hRaises⟩ | ⟨own, hOwn, rfl | ⟨error, rfl, hRaises⟩⟩⟩ :=
    perform_cases hCases
  · exact hRaised _ _ choice error hRely hRaises (Or.inl rfl)
  · exact hEffect now middle choice _ hRely sound hOwn
  · exact hRaised now middle choice error hRely hRaises (Or.inr ⟨own, hOwn⟩)

/-- The calls of a worker that is processing: all but those on the stream and lookups. -/
def IsQuiet : Call → Prop
  | .outside _ | .markStatus _ _ _ _ | .upsertDocument _ _ _ => True
  | _ => False

/-- A quiet call keeps the agent's attempt at its entry and its last lookup. -/
theorem perform_keeps {request : Call} {answer : Except Failure (Response request)}
    (sound : Sound setting.codec now) (guard : Guard setting agent now request)
    (hQuiet : IsQuiet request)
    (h : perform setting agent now choice request = some (answer, after)) :
    Keeps agent now after := by
  have hGrows := perform_grows sound.unique guard.upsertsKnown h
  obtain ⟨middle, rfl, hMiddle⟩ := perform_cases h
  have hNote : ((note agent request answer middle).attempts agent).entry =
        (middle.attempts agent).entry ∧
      (note agent request answer middle).history = middle.history := by
    cases request with
    | outside query => exact ⟨rfl, rfl⟩
    | upsertDocument tenantId filename document => exact ⟨rfl, rfl⟩
    | markStatus tenantId id status error =>
        cases answer with
        | error error => exact ⟨rfl, rfl⟩
        | ok answer =>
            simp only [note]
            split_ifs
            · exact ⟨by rw [DeliveryState.setAttempt_self], rfl⟩
            · exact ⟨rfl, rfl⟩
    | _ => exact absurd hQuiet id
  have hMiddle' : (middle.attempts agent) = (now.attempts agent) ∧
      lastLookup agent middle.history = lastLookup agent now.history := by
    rcases hMiddle with ⟨rfl, -⟩ | ⟨own, hEffect, -⟩
    · exact ⟨rfl, rfl⟩
    · obtain ⟨hAttempts, hLookups, -⟩ := effect_quiet hEffect
      exact ⟨congrFun hAttempts agent, hLookups agent⟩
  exact ⟨hGrows, by rw [hNote.1, hMiddle'.1], by rw [hNote.2, hMiddle'.2]⟩

/-- A quiet call, made with its guard: whatever it is answered, the agent keeps up. -/
theorem safe_quiet (request : Call)
    {post : Except Failure (Response request) → DeliveryState → Prop}
    (hQuiet : IsQuiet request)
    (hGuard : ∀ now, Keeps agent state now → Guard setting agent now request)
    (hPost : ∀ now choice answer after, Keeps agent state now → Sound setting.codec now →
      perform setting agent now choice request = some (answer, after) → Keeps agent state after →
      post answer after) :
    (knowledge setting).Safe agent (call request) post state := by
  apply Safe.perform
  intro now hRely hInv
  have hNow : Keeps agent state now := Keeps.of_rely hRely
  refine ⟨hGuard now hNow, fun choice answer after hPerform _ => ?_⟩
  have hAfter := perform_keeps hInv (hGuard now hNow) hQuiet hPerform
  refine hPost now choice answer after hNow hInv hPerform ⟨hNow.toGrows.trans hAfter.toGrows, ?_, ?_⟩
  · rw [hAfter.entry, hNow.entry]
  · rw [hAfter.lookup, hNow.lookup]

theorem safe_outside {query : Outside}
    {post : Except Failure query.Answer → DeliveryState → Prop}
    (hPost : ∀ answer after, Keeps agent state after → post answer after) :
    (knowledge setting).Safe agent ((backend setting).outside query) post state :=
  safe_quiet (.outside query) trivial (fun _ _ => trivial)
    fun _ _ answer after _ _ _ hAfter => hPost answer after hAfter

end Calls

section Processing
variable {setting : Setting} {agent : Nat} {entry : StreamMessage} {event : WorkerEvent}
  {state : DeliveryState}

/-- The agent goes on working at the entry, whatever it is answered. -/
abbrev StillWorking (setting : Setting) (agent : Nat) (entry : StreamMessage)
    (event : WorkerEvent) {Result : Type} : Except Failure Result → DeliveryState → Prop :=
  fun _ now => Working setting.codec agent entry event now

/-- A status change of the document the agent works at. Once it is answered, the row was
stored with that status. -/
theorem safe_markStatus (working : Working setting.codec agent entry event state)
    (status : DocumentStatus) (error : Option String) (hStatus : status ≠ .uploaded)
    {post : Except Failure Unit → DeliveryState → Prop}
    (hPost : ∀ answer after, Keeps agent state after →
      (answer = .ok () → (∃ row, .committed row ∈ after.history ∧ row.ownerKey = eventKey event ∧
          row.status = status ∧ row.error = if status = .failed then error else none) ∧
        (status = .processed ∨ status = .failed → (after.attempts agent).settled = true)) →
      post answer after) :
    (knowledge setting).Safe agent
      ((backend setting).markStatus event.tenantId event.documentId status error) post state := by
  refine safe_quiet (.markStatus event.tenantId event.documentId status error) trivial
    (fun now keeps => ⟨hStatus, entry, event, working.keeps keeps, rfl⟩) ?_
  intro now choice answer after _ _ hPerform hAfter
  apply hPost answer after hAfter
  rintro rfl
  obtain ⟨middle, rfl, ⟨-, error, hError, -⟩ | ⟨own, hEffect, rfl | ⟨error, hError, -⟩⟩⟩ :=
    perform_cases hPerform
  · cases hError
  · simp only [effect] at hEffect
    split at hEffect
    · cases hEffect
    · rename_i row hFound
      cases hEffect
      have hKey := (select_mem hFound).2
      refine ⟨⟨statusRow status error row, ?_, hKey, rfl, rfl⟩, ?_⟩
      · exact (note_grows agent _ _ _).history.subset (List.mem_cons_self ..)
      · intro hFinal
        simp only [note]
        rw [if_pos hFinal, DeliveryState.setAttempt_self]
  · cases hError

/-- Reading an object asks only the object store. -/
theorem safe_readObject (working : Working setting.codec agent entry event state) (reads : Nat)
    (data : Bytes) :
    (knowledge setting).Safe agent (readObject (backend setting) event reads data)
      (StillWorking setting agent entry event) state := by
  induction reads generalizing state data with
  | zero => exact working
  | succ reads ih =>
      apply Safe.bind
      apply safe_outside
      intro answer after hAfter
      cases answer with
      | error error => exact working.keeps hAfter
      | ok more =>
          simp only
          split_ifs
          · exact working.keeps hAfter
          · exact working.keeps hAfter
          · exact ih (working.keeps hAfter) _

/-- What is downloaded has the digest and the kind of the event. -/
theorem safe_download (working : Working setting.codec agent entry event state) :
    (knowledge setting).Safe agent (download (backend setting) event)
      (fun outcome now => Working setting.codec agent entry event now ∧
        ∀ data, outcome = .ok data → setting.sha256 data = event.sha256 ∧
          mediaType (data.take 8) = .ok event.mediaType) state := by
  apply Safe.bind
  apply Safe.tryCatch
  apply Safe.bind
  apply safe_outside
  intro answer after hAfter
  cases answer with
  | error error => exact ⟨working.keeps hAfter, fun data h => by cases h⟩
  | ok opened =>
      apply (safe_readObject (working.keeps hAfter) (event.sizeBytes + 1) []).mono
      intro outcome now hWorking
      cases outcome with
      | error error => exact ⟨hWorking, fun data h => by cases h⟩
      | ok data =>
          simp only
          split_ifs with hMismatch
          · exact ⟨hWorking, fun other h => by cases h⟩
          · obtain ⟨-, hDigest⟩ := not_or.mp hMismatch
            cases hKind : mediaType (data.take 8) with
            | error error => exact ⟨hWorking, fun other h => by cases h⟩
            | ok kind =>
                simp only
                split_ifs with hOther
                · exact ⟨hWorking, fun other h => by cases h⟩
                · refine ⟨hWorking, fun other h => ?_⟩
                  cases h
                  exact ⟨not_not.mp hDigest, hKind.trans (congrArg _ (not_not.mp hOther))⟩

/-- The document is found by the content the event names. -/
theorem Working.findByContent (working : Working setting.codec agent entry event state)
    (sound : Sound setting.codec state) :
    ∃ row, state.database.findByContent event.tenantId event.sha256 = some row ∧
      row.ownerKey = eventKey event := by
  obtain ⟨row, hRow, hKey, hDescribes⟩ := working.stored
  have hTenant : row.tenantId = event.tenantId := congrArg Prod.fst hKey
  have hFound := sound.unique.findByContent hRow
  rw [hTenant, hDescribes.1] at hFound
  exact ⟨row, hFound, hKey⟩

/-- Indexing a verified original stores completed output for the document. -/
theorem safe_index (working : Working setting.codec agent entry event state) {data : Bytes}
    (hDigest : setting.sha256 data = event.sha256)
    (hKind : mediaType (data.take 8) = .ok event.mediaType) (path : String)
    (filename : Option String) :
    (knowledge setting).Safe agent (index (backend setting) path data event.tenantId filename)
      (fun outcome now => Working setting.codec agent entry event now ∧
        (outcome = .ok () → CompletedBefore event now.history)) state := by
  rw [mediaType_take] at hKind
  unfold index
  rw [hKind]
  simp only
  apply Safe.bind
  apply safe_outside
  intro answer after hAfter
  cases answer with
  | error error => exact ⟨working.keeps hAfter, fun h => by cases h⟩
  | ok output =>
      apply safe_quiet (.upsertDocument event.tenantId (storedName path filename) _) trivial
      · intro now keeps
        obtain ⟨row, hRow, hKey, hDescribes⟩ := (working.keeps hAfter).keeps keeps |>.stored
        exact ⟨⟨row, hRow, congrArg Prod.fst hKey, hDescribes.1.trans hDigest.symm,
          hDescribes.2.2.1⟩, rfl⟩
      · intro now choice answer later hNow sound hPerform hLater
        have hWorking := (working.keeps hAfter).keeps hLater
        refine ⟨hWorking, ?_⟩
        rintro rfl
        obtain ⟨middle, rfl, ⟨-, error, hError, -⟩ | ⟨own, hEffect, rfl | ⟨error, hError, -⟩⟩⟩ :=
          perform_cases hPerform
        · cases hError
        · rcases upsertEffect_cases hEffect with ⟨hError, -⟩ | ⟨record, row, hPrepared, -, hRow, rfl⟩
          · cases hError
          · obtain ⟨known, hFound, hKey⟩ := ((working.keeps hAfter).keeps hNow).findByContent sound
            rw [← hDigest] at hFound
            have hRecord := prepareDocument_ok hPrepared
            rcases hRow with ⟨hAbsent, -⟩ | ⟨old, hOld, rfl⟩
            · cases hFound.symm.trans hAbsent
            · cases hFound.symm.trans hOld
              refine ⟨_, List.mem_cons_self .., hKey, ?_⟩
              rw [hRecord]
              rfl
        · cases hError

/-- Processing ends with the document completed, or with an error. -/
theorem safe_process (working : Working setting.codec agent entry event state)
    (document : StoredDocument) :
    (knowledge setting).Safe agent (process (backend setting) event document)
      (fun outcome now => Working setting.codec agent entry event now ∧
        (outcome = .ok () → CompletedBefore event now.history ∧
          (now.attempts agent).settled = true)) state := by
  apply Safe.bind
  apply safe_markStatus working _ _ (by decide)
  intro marked after hMarked _
  have hAfter := working.keeps hMarked
  cases marked with
  | error error => exact ⟨hAfter, fun h => by cases h⟩
  | ok marked =>
      apply Safe.bind
      apply safe_outside
      intro made now hNow
      cases made with
      | error error => exact ⟨hAfter.keeps hNow, fun h => by cases h⟩
      | ok made =>
          apply Safe.bind
          apply Safe.tryFinally
          apply Safe.bind
          apply (safe_download (hAfter.keeps hNow)).mono
          rintro downloaded reached ⟨hWorking, hData⟩
          cases downloaded with
          | error error =>
              apply safe_outside
              intro removed later hLater
              cases removed with
              | error error => exact ⟨hWorking.keeps hLater, fun h => by cases h⟩
              | ok removed => exact ⟨hWorking.keeps hLater, fun h => by cases h⟩
          | ok data =>
              obtain ⟨hDigest, hKind⟩ := hData data rfl
              apply (safe_index hWorking hDigest hKind "original" (some document.filename)).mono
              rintro indexed stored ⟨hStored, hCompleted⟩
              apply safe_outside
              intro removed later hLater
              have hStill := hStored.keeps hLater
              cases removed with
              | error error => exact ⟨hStill, fun h => by cases h⟩
              | ok removed =>
                  cases indexed with
                  | error error => exact ⟨hStill, fun h => by cases h⟩
                  | ok indexed =>
                      apply safe_markStatus hStill _ _ (by decide)
                      rintro answer finish hFinish hMarked
                      refine ⟨hStill.keeps hFinish, fun h => ⟨?_, (hMarked h).2 (Or.inl rfl)⟩⟩
                      exact (hCompleted rfl).mono (hLater.history.trans hFinish.history)

end Processing

section Acknowledging
variable {setting : Setting} {agent : Nat} {entry : StreamMessage} {event : WorkerEvent}
  {state now : DeliveryState}

/-- Nothing is lost with the entry when the agent acknowledges it: its outcome is settled,
or no document waits for it. -/
def Dispensable (setting : Setting) (agent : Nat) (entry : StreamMessage)
    (state : DeliveryState) : Prop :=
  ReadsAnswer setting → state.attempts agent = ⟨some entry.id, true⟩ ∨
    Barren setting.codec entry.fields state.database.documents

theorem Dispensable.rely (h : Dispensable setting agent entry state)
    (hRely : (knowledge setting).Rely agent state now) : Dispensable setting agent entry now := by
  intro hReads
  rcases h hReads with hSettled | hBarren
  · exact Or.inl (hRely.2.attempt.trans hSettled)
  · exact Or.inr (hBarren.mono hRely.1.documents)

theorem safe_acknowledge (hEntry : entry ∈ state.entries)
    (hDurable : Durable setting.codec entry.fields state.history)
    (hDispensable : Dispensable setting agent entry state) :
    (knowledge setting).Safe agent ((backend setting).stream (.acknowledge entry.id))
      (fun _ _ => True) state := by
  apply safe_call (.stream (.acknowledge entry.id))
  · intro now hRely sound other hOther hId
    obtain rfl := sound.entry_eq hOther (hRely.1.mem hEntry) hId
    exact ⟨hDurable.mono hRely.1.history, hDispensable.rely hRely⟩
  · intros
    trivial
  · intros
    trivial

/-- A dead letter of an entry comes before its acknowledgement. -/
theorem safe_deadLetter (hEntry : entry ∈ state.entries) {error : String} (attempts : Nat)
    (hFailed : ∀ event row, WorkerEvent.modelValidate setting.codec entry.fields = some event →
      lastLookup agent state.history = some row → Describes event row →
      FailedBefore event error state.history)
    (hDispensable : Dispensable setting agent entry state) :
    (knowledge setting).Safe agent (deadLetter (backend setting) entry error attempts)
      (fun _ _ => True) state := by
  apply Safe.bind
  apply safe_call (.stream (.addDeadLetter (deadLetterFields entry.fields error attempts)))
  · intros
    trivial
  · intros
    trivial
  · intro now middle choice answer hRely sound hEffect
    have hNow := hDispensable.rely hRely
    cases hEffect
    apply safe_acknowledge
    · exact hRely.1.mem hEntry
    · refine Or.inr ⟨agent, error, attempts, now.history, List.suffix_rfl, ?_⟩
      intro event row hValid hLooked hDescribes
      rw [hRely.2.lookup] at hLooked
      exact (hFailed event row hValid hLooked hDescribes).mono hRely.1.history
    · exact hNow

theorem Working.fail_safe (working : Working setting.codec agent entry event state)
    (error : String) (attempts : Nat) :
    (knowledge setting).Safe agent (fail (backend setting) entry event error attempts)
      (fun _ _ => True) state := by
  apply Safe.bind
  apply safe_markStatus working _ _ (by decide)
  intro answer after hAfter hMarked
  cases answer with
  | error error => trivial
  | ok marked =>
      obtain ⟨⟨row, hRow, hKey, hStatus, hError⟩, hSettled⟩ := hMarked rfl
      have hWorking := working.keeps hAfter
      apply safe_deadLetter hWorking.received
      · intro other found hValid _ _
        cases hWorking.valid.symm.trans hValid
        exact ⟨row, hRow, hKey, hStatus, hError⟩
      · intro _
        refine Or.inl ?_
        rw [← hWorking.attempt, ← hSettled (Or.inr rfl)]

/-- Whatever processing comes to, the entry is acknowledged only after its outcome. -/
theorem settle_safe {outcome : Except Failure Unit} (attempts : Nat)
    (working : Working setting.codec agent entry event state)
    (hOutcome : outcome = .ok () → CompletedBefore event state.history ∧
      (state.attempts agent).settled = true) :
    (knowledge setting).Safe agent (settle (backend setting) entry event attempts outcome)
      (fun _ _ => True) state := by
  cases outcome with
  | ok processed =>
      obtain ⟨hCompleted, hSettled⟩ := hOutcome rfl
      apply safe_acknowledge working.received (Or.inl ⟨event, working.valid, hCompleted⟩)
      intro _
      refine Or.inl ?_
      rw [← working.attempt, ← hSettled]
  | error error =>
      simp only [settle]
      split_ifs
      · trivial
      · exact working.fail_safe _ attempts

/-- A lookup that was answered. -/
abbrev noteLooked (agent : Nat) (event : WorkerEvent) (found : Option StoredDocument)
    (state : DeliveryState) : DeliveryState :=
  note agent (.getDocument event.tenantId event.documentId) (.ok found) state

theorem lastLookup_noteLooked (agent : Nat) (found : Option StoredDocument)
    (state : DeliveryState) :
    lastLookup agent (noteLooked agent event found state).history =
      found.map StoredDocument.toDocumentRow :=
  if_pos rfl

theorem Handles.attempt_noteLooked (handles : Handles setting.codec agent entry event state)
    (found : Option StoredDocument) :
    (noteLooked agent event found state).attempts agent =
      ⟨some entry.id, (found.map StoredDocument.toDocumentRow).all completed⟩ := by
  simp only [noteLooked, note, DeliveryState.setAttempt_self]
  rw [handles.attempt]

theorem Handles.noteLooked (handles : Handles setting.codec agent entry event state)
    (found : Option StoredDocument) :
    Handles setting.codec agent entry event (noteLooked agent event found state) :=
  ⟨handles.received, handles.delivered, handles.valid, by rw [handles.attempt_noteLooked found]⟩

/-- What an agent knows after it looked its document up. -/
def Looked (setting : Setting) (agent : Nat) (entry : StreamMessage) (event : WorkerEvent) :
    Except Failure StoredDocument → DeliveryState → Prop
  | .ok document, now => Handles setting.codec agent entry event now ∧
      (completed document.toDocumentRow = true → CompletedBefore event now.history ∧
        (now.attempts agent).settled = true) ∧
      (completed document.toDocumentRow = false → Working setting.codec agent entry event now)
  | .error error, now => Handles setting.codec agent entry event now ∧
      (∀ row, lastLookup agent now.history = some row → ¬ Describes event row) ∧
      (error.isReference = true → Dispensable setting agent entry now)

theorem lookup_safe (handles : Handles setting.codec agent entry event state) :
    (knowledge setting).Safe agent (lookup (backend setting) event)
      (Looked setting agent entry event) state := by
  apply Safe.bind
  apply safe_call (.getDocument event.tenantId event.documentId)
  · intro now hRely sound
    exact ⟨entry, event, handles.keeps (Keeps.of_rely hRely), rfl⟩
  · intro now middle choice error hRely hRaises hMiddle
    have hNow := handles.keeps (Keeps.of_rely hRely)
    have hSame : middle = now := by
      rcases hMiddle with hSame | ⟨own, hEffect⟩
      · exact hSame
      · cases hEffect
        rfl
    rw [hSame]
    refine ⟨⟨hNow.received, hNow.delivered, hNow.valid, hNow.attempt⟩, ?_, ?_⟩
    · intro row hLooked
      simp [note, DeliveryState.log, lastLookup] at hLooked
    · intro hReference hReads
      rw [hReads _ _ error hRaises] at hReference
      cases hReference
  · intro now middle choice answer hRely sound hEffect
    have hNow := handles.keeps (Keeps.of_rely hRely)
    cases hEffect
    cases hFound : now.database.findById event.tenantId event.documentId with
    | none =>
        have hDocument : now.database.getDocument event.tenantId event.documentId = none := by
          rw [Database.getDocument, hFound, Option.map_none]
        simp only [hDocument]
        refine ⟨hNow.noteLooked none, ?_, ?_⟩
        · intro row hLooked
          rw [lastLookup_noteLooked] at hLooked
          cases hLooked
        · intro _ _
          exact Or.inl (hNow.attempt_noteLooked none)
    | some row =>
        obtain ⟨hRow, hKey⟩ := select_mem hFound
        cases hDocument : now.database.getDocument event.tenantId event.documentId with
        | none =>
            rw [Database.getDocument, hFound] at hDocument
            cases hDocument
        | some document =>
            have hSame : document.toDocumentRow = row := by
              rw [Database.getDocument, hFound] at hDocument
              cases hDocument
              rfl
            rw [← hSame] at hRow hKey
            simp only
            split_ifs with hDescribes
            · refine ⟨hNow.noteLooked (some document), fun hCompleted => ⟨?_, ?_⟩, fun hOpen => ?_⟩
              · exact ⟨_, List.mem_cons_of_mem _ (sound.committed _ hRow), hKey, hCompleted⟩
              · exact (congrArg Attempt.settled (hNow.attempt_noteLooked (some document))).trans
                  hCompleted
              · refine ⟨hNow.noteLooked (some document), ⟨_, lastLookup_noteLooked _ _ _, hKey, hOpen⟩,
                  ⟨_, hRow, hKey, hDescribes⟩⟩
            · refine ⟨hNow.noteLooked (some document), ?_, ?_⟩
              · intro other hLooked
                rw [lastLookup_noteLooked] at hLooked
                cases hLooked
                exact hDescribes
              · intro _ _
                refine Or.inr fun other hValid => ?_
                cases hNow.valid.symm.trans hValid
                exact ⟨_, hRow, hKey, hDescribes⟩

theorem handleLooked_safe (settings : WorkerSettings) (attempts : Nat)
    {outcome : Except Failure StoredDocument}
    (hLooked : Looked setting agent entry event outcome state) :
    (knowledge setting).Safe agent
      (handleLooked (backend setting) settings entry event attempts outcome) (fun _ _ => True)
      state := by
  cases outcome with
  | error error =>
      obtain ⟨hHandles, hOther, hDispensable⟩ := hLooked
      simp only [handleLooked]
      split_ifs with hTransient hReference
      · trivial
      · apply safe_deadLetter hHandles.received
        · intro other row hValid hFound hDescribes
          cases hHandles.valid.symm.trans hValid
          exact absurd hDescribes (hOther row hFound)
        · exact hDispensable hReference
      · trivial
  | ok document =>
      obtain ⟨hHandles, hCompleted, hOpen⟩ := hLooked
      simp only [handleLooked]
      split_ifs with hDone hLimit
      · obtain ⟨hBefore, hSettled⟩ := hCompleted hDone
        apply safe_acknowledge hHandles.received (Or.inl ⟨event, hHandles.valid, hBefore⟩)
        intro _
        refine Or.inl ?_
        rw [← hHandles.attempt, ← hSettled]
      · exact (hOpen (Bool.not_eq_true _ ▸ hDone)).fail_safe _ attempts
      · apply Safe.andThen
        apply (safe_process (hOpen (Bool.not_eq_true _ ▸ hDone)) document).mono
        rintro outcome now ⟨hWorking, hOutcome⟩
        exact settle_safe attempts hWorking hOutcome

/-- Handling a delivery of an entry meets every guard. -/
theorem handle_safe (settings : WorkerSettings) (hEntry : entry ∈ state.entries) :
    (knowledge setting).Safe agent (handle (backend setting) setting.codec settings entry)
      (fun _ _ => True) state := by
  apply Safe.bind
  apply safe_call (.stream (.pending entry.id))
  · intros
    trivial
  · intros
    trivial
  · intro now middle choice answer hRely sound hEffect
    cases hEffect
    have hNow : entry ∈ (now.setAttempt agent { entry := some entry.id }).entries :=
      hRely.1.mem hEntry
    simp only
    split_ifs with hStale
    · trivial
    · cases hValid : WorkerEvent.modelValidate setting.codec entry.fields with
      | none =>
          simp only
          apply safe_deadLetter hNow
          · intro event row hEvent
            rw [hValid] at hEvent
            cases hEvent
          · intro _
            refine Or.inr fun event hEvent => ?_
            rw [hValid] at hEvent
            cases hEvent
      | some event =>
          have hDelivered : entry.id < now.delivered := by
            cases hPending : select PendingEntry.id entry.id now.pending with
            | none => simp [hPending] at hStale
            | some pending =>
                obtain ⟨hMem, hId⟩ := select_mem hPending
                exact hId ▸ sound.pending pending hMem
          apply Safe.tryCatch
          apply Safe.andThen
          have handles : Handles setting.codec agent entry event
              (now.setAttempt agent { entry := some entry.id }) :=
            ⟨hNow, hDelivered, hValid, congrArg Attempt.entry (DeliveryState.setAttempt_self agent _ now)⟩
          apply (lookup_safe handles).mono
          intro outcome later hLooked
          apply (handleLooked_safe settings _ hLooked).mono
          rintro (error | handled) finish _
          · simp only
            split_ifs <;> trivial
          · trivial

/-- A call whose guard asks for nothing. -/
theorem safe_free (request : Call) (hGuard : ∀ now, Guard setting agent now request) :
    (knowledge setting).Safe agent (call request) (fun _ _ => True) state :=
  safe_call request (fun now _ _ => hGuard now) (fun _ _ _ _ _ _ _ => trivial)
    fun _ _ _ _ _ _ _ => trivial

/-- What is in the stream stays there, whatever a program does. -/
theorem Safe.entries {Result : Type} {program : Task Result}
    {post : Except Failure Result → DeliveryState → Prop} {messages : List StreamMessage}
    (hMessages : messages ⊆ state.entries)
    (h : (knowledge setting).Safe agent program post state) :
    (knowledge setting).Safe agent program
      (fun outcome now => post outcome now ∧ messages ⊆ now.entries) state := by
  refine Safe.frame ?_ ?_ hMessages h
  · intro now later hRely hNow
    exact fun message hMessage => hRely.1.mem (hNow hMessage)
  · intro now request choice answer after sound guard hPerform hNow
    have hGrows := perform_grows sound.unique (Guard.upsertsKnown guard) hPerform
    exact fun message hMessage => hGrows.mem (hNow hMessage)

theorem handleAll_safe (settings : WorkerSettings) {messages : List StreamMessage}
    (hMessages : messages ⊆ state.entries) :
    (knowledge setting).Safe agent (handleAll (backend setting) setting.codec settings messages)
      (fun _ _ => True) state := by
  induction messages generalizing state with
  | nil => trivial
  | cons message rest ih =>
      apply Safe.bind
      apply (Safe.entries hMessages (safe_free (.outside .stopping) fun _ => trivial)).mono
      rintro (error | stopping) now ⟨-, hNow⟩
      · trivial
      · simp only
        split_ifs
        · trivial
        · apply Safe.bind
          apply (Safe.entries hNow (safe_free (.stream .heartbeat) fun _ => trivial)).mono
          rintro (error | beaten) later ⟨-, hLater⟩
          · trivial
          · apply Safe.bind
            apply (Safe.entries hLater (handle_safe settings (hLater (List.mem_cons_self ..)))).mono
            rintro (error | handled) finish ⟨-, hFinish⟩
            · trivial
            · exact ih fun other hOther => hFinish (List.mem_cons_of_mem _ hOther)

end Acknowledging

section Turns
variable {setting : Setting} {agent : Nat} {state : DeliveryState} (settings : WorkerSettings)
  (worker : WorkerState)

theorem safe_guarded {Result : Type} {program : Task Result}
    {next : Result → Task (WorkerState × Except Failure Unit)}
    (h : (knowledge setting).Safe agent program (fun outcome now => ∀ result, outcome = .ok result →
      (knowledge setting).Safe agent (next result) (fun _ _ => True) now) state) :
    (knowledge setting).Safe agent (guarded worker program next) (fun _ _ => True) state := by
  apply Safe.andThen
  apply h.mono
  rintro (error | result) now hNext
  · trivial
  · exact hNext result rfl

theorem safe_guarded_free (request : Call)
    {next : Response request → Task (WorkerState × Except Failure Unit)}
    (hGuard : ∀ now, Guard setting agent now request)
    (hNext : ∀ result now, (knowledge setting).Safe agent (next result) (fun _ _ => True) now) :
    (knowledge setting).Safe agent (guarded worker (call request) next) (fun _ _ => True)
      state := by
  apply safe_guarded
  apply (safe_free request hGuard).mono
  intro outcome now _ result _
  exact hNext result now

theorem receive_safe {reclaimed : List StreamMessage} (hReclaimed : reclaimed ⊆ state.entries) :
    (knowledge setting).Safe agent
      (receive (backend setting) setting.codec settings worker reclaimed) (fun _ _ => True)
      state := by
  have hRest : ∀ messages now, messages ⊆ DeliveryState.entries now →
      (knowledge setting).Safe agent
        (guarded worker (handleAll (backend setting) setting.codec settings messages) fun _ =>
          guarded worker ((backend setting).stream .heartbeat) fun _ => pure (worker, .ok ()))
        (fun _ _ => True) now := by
    intro messages now hMessages
    apply safe_guarded
    apply (handleAll_safe settings hMessages).mono
    intro outcome later _ result _
    exact safe_guarded_free worker (.stream .heartbeat) (fun _ => trivial) fun _ _ => trivial
  apply safe_guarded
  split_ifs
  · apply safe_call (.stream .readGroup)
    · intros
      trivial
    · intro now middle choice error _ _ _ result h
      cases h
    · intro now middle choice answer hRely sound hEffect result h
      cases hEffect
      cases h
      apply hRest
      intro message hMessage
      exact List.mem_of_mem_drop (List.mem_of_mem_take hMessage)
  · rintro messages h
    cases h
    exact hRest reclaimed state hReclaimed

theorem reclaimed_safe {cursor : String} {messages : List StreamMessage}
    (hMessages : messages ⊆ state.entries) :
    (knowledge setting).Safe agent
      (if cursor = "0-0" then
        guarded { worker with cursor } ((backend setting).outside .clock) fun now =>
        receive (backend setting) setting.codec settings
          { worker with cursor, nextReclaim := now + settings.reclaimSeconds } messages
      else receive (backend setting) setting.codec settings { worker with cursor } messages)
      (fun _ _ => True) state := by
  split_ifs
  · apply safe_guarded
    apply (Safe.entries hMessages (safe_free (.outside .clock) fun _ => trivial)).mono
    rintro outcome later ⟨-, hLater⟩ result _
    exact receive_safe settings _ hLater
  · exact receive_safe settings _ hMessages

theorem reclaim_safe :
    (knowledge setting).Safe agent (reclaim (backend setting) setting.codec settings worker)
      (fun _ _ => True) state := by
  apply safe_guarded
  apply safe_call (.stream (.autoClaim worker.cursor))
  · intros
    trivial
  · intro now middle choice error _ _ _ result h
    cases h
  · intro now middle choice answer hRely sound hEffect result h
    simp only [effect, streamEffect, Option.map_eq_some_iff] at hEffect
    obtain ⟨⟨claimed, reached⟩, hClaim, hAnswer⟩ := hEffect
    split_ifs at hClaim
    cases hClaim
    cases hAnswer
    cases h
    exact reclaimed_safe settings worker fun message hMessage => (List.mem_filter.mp hMessage).1

theorem runOnce_safe :
    (knowledge setting).Safe agent (runOnce (backend setting) setting.codec settings worker)
      (fun _ _ => True) state := by
  apply safe_guarded_free worker (.outside .stopping) fun _ => trivial
  intro stopping now
  split
  · trivial
  · apply safe_guarded
    have hReady : (knowledge setting).Safe agent
        (if worker.ready then pure () else (backend setting).stream .createGroup)
        (fun _ _ => True) now := by
      split_ifs
      · trivial
      · exact safe_free (.stream .createGroup) fun _ => trivial
    apply hReady.mono
    intro outcome later _ result _
    simp only
    apply safe_guarded_free _ (.stream .heartbeat) fun _ => trivial
    intro beaten reached
    split_ifs
    · exact reclaim_safe settings _
    · apply safe_guarded_free _ (.outside .clock) fun _ => trivial
      intro time finish
      split_ifs
      · exact reclaim_safe settings _
      · exact receive_safe settings _ (List.nil_subset _)

/-- A worker meets the guard of every call it makes, for any number of turns. -/
theorem worker_safe (turns : Nat) :
    (knowledge setting).Safe agent
      (Worker.run (backend setting) setting.codec settings turns worker) (fun _ _ => True)
      state := by
  induction turns generalizing worker state with
  | zero => trivial
  | succ turns ih =>
      apply Safe.bind
      apply (safe_free (.outside .stopping) fun _ => trivial).mono
      rintro (error | stopping) now -
      · trivial
      · simp only
        split_ifs
        · trivial
        · apply Safe.bind
          apply (runOnce_safe settings worker).mono
          rintro (error | ⟨after, error | done⟩) later -
          · trivial
          · simp only
            split_ifs
            · apply Safe.bind
              apply (safe_free (.outside .wait) fun _ => trivial).mono
              rintro (raised | waited) reached -
              · trivial
              · exact ih _
            · trivial
          · exact ih after

end Turns

end DocInsight.Delivery
