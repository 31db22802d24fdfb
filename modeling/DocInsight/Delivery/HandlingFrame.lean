import DocInsight.Delivery.Acknowledgement
import DocInsight.Delivery.OwnDocument

/-! Handling a message touches only the document that its event names, and successful
processing keeps everything about it that was registered, but for an empty name. -/
namespace DocInsight.Delivery

open DocInsight.Contracts DocInsight.Worker Interaction Interaction.Discipline Table
open DocInsight.Storage (ChangesOnly Held processedRow outputDocument)

section Handling
variable {setting : Setting} {message : StreamMessage} {before : Database}
  {state after : DeliveryState} {made : Exchanges} {agent : Nat}

/-- A worker on its own that handles a message, over these tables. -/
def handling (setting : Setting) (agent : Nat) (message : StreamMessage) (before : Database) :
    Discipline (Environment.alone fun state request choice =>
      perform setting agent state choice request) :=
  alone _ (Within setting message before) (Permitted setting message before) within_step

/-- A call that does not write: the tables stay, whatever it is answered. -/
theorem handling_read {request : Call}
    {post : Except Failure (Response request) → DeliveryState × Exchanges → Prop}
    (hRead : ¬request.IsWrite) (hPermitted : Permitted setting message before state made request)
    (hPost : ∀ choice answer after, perform setting agent state choice request =
      some (answer, after) → Within setting message before state made →
      after.database = state.database → post answer (after, made ++ [⟨request, answer⟩])) :
    (handling setting agent message before).Safe () (call request) post (state, made) := by
  apply Safe.alone_perform
  · exact fun _ => hPermitted
  · intro choice answer after within hPerform _
    exact hPost choice answer after hPerform within (perform_database hRead hPerform)

variable {event : WorkerEvent} {row : DocumentRow}

theorem AtDocument.read (working : AtDocument setting message before event row state made)
    {request : Call} {answer : Except Failure (Response request)} (hRead : ¬request.IsWrite)
    (hDatabase : after.database = state.database) :
    AtDocument setting message before event row after (made ++ [⟨request, answer⟩]) := by
  refine ⟨working.names, working.describes, fun hProcessed => ?_, ?_⟩
  · rcases hProcessed.of_append with hMade | hLast
    · exact working.unprocessed hMade
    · cases hLast
      exact absurd trivial hRead
  · rw [hDatabase]
    exact working.held

/-- A question to the outside of a worker that is at its document. -/
theorem handling_outside (working : AtDocument setting message before event row state made)
    (query : Outside) {post : Except Failure query.Answer → DeliveryState × Exchanges → Prop}
    (hPost : ∀ answer after, after.database = state.database →
      AtDocument setting message before event row after (made ++ [⟨.outside query, answer⟩]) →
      post answer (after, made ++ [⟨.outside query, answer⟩])) :
    (handling setting agent message before).Safe () ((backend setting).outside query) post
      (state, made) := by
  have hRead : ¬(Call.outside query).IsWrite := fun hWrite => hWrite
  apply handling_read hRead (fun _ => ⟨event, row, working⟩)
  intro choice answer after _ _ hDatabase
  exact hPost answer after hDatabase (working.read hRead hDatabase)

/-- The worker is still at its document, whatever it is answered. -/
abbrev StillAt (setting : Setting) (message : StreamMessage) (before : Database)
    (event : WorkerEvent) (row : DocumentRow) {Result : Type} :
    Except Failure Result → DeliveryState × Exchanges → Prop :=
  fun _ now => AtDocument setting message before event row now.1 now.2

/-- A status change of the document a worker is at: it is processed, or the worker is
still at it. -/
theorem handling_markStatus (working : AtDocument setting message before event row state made)
    (status : DocumentStatus) (error : Option String)
    (hIndexed : status = .processed → HasIndexed setting row state made) :
    (handling setting agent message before).Safe ()
      ((backend setting).markStatus event.tenantId event.documentId status error)
      (fun answer now => (status = .processed ∧ answer = .ok ()) ∨
        AtDocument setting message before event row now.1 now.2) (state, made) := by
  have hKey : (event.tenantId, event.documentId) = row.ownerKey := working.names.ownerKey.symm
  apply Safe.alone_perform
  · exact fun _ => ⟨event, row, working, hKey, hIndexed⟩
  · intro choice answer after within hPerform _
    by_cases hDone : status = .processed ∧ answer = .ok ()
    · exact Or.inl hDone
    · refine Or.inr ⟨working.names, working.describes, fun hProcessed => ?_, ?_⟩
      · rcases hProcessed.of_append with hMade | hLast
        · exact working.unprocessed hMade
        · obtain ⟨⟨hStatus, -⟩, hAnswer⟩ := eq_of_processed hLast
          exact hDone ⟨hStatus, hAnswer⟩
      · obtain ⟨now, held⟩ := working.held
        rcases perform_markStatus hPerform with ⟨hSame, -⟩ | hMarked
        · exact ⟨now, hSame ▸ held⟩
        · rw [show event.tenantId = row.tenantId from congrArg Prod.fst hKey,
            show event.documentId = row.id from congrArg Prod.snd hKey] at hMarked
          exact ⟨_, hMarked ▸ held.markStatus status error⟩

/-- Reading an object asks only the object store. -/
theorem handling_readObject (working : AtDocument setting message before event row state made)
    (reads : Nat) (data : Bytes) :
    (handling setting agent message before).Safe () (readObject (backend setting) event reads data)
      (StillAt setting message before event row) (state, made) := by
  induction reads generalizing state made data with
  | zero => exact working
  | succ reads ih =>
      apply Safe.bind
      apply handling_outside working
      intro answer after _ hAfter
      cases answer with
      | error error => exact hAfter
      | ok more =>
          simp only
          split_ifs
          · exact hAfter
          · exact hAfter
          · exact ih hAfter _

/-- What is downloaded has the digest and the kind of the event. -/
theorem handling_download (working : AtDocument setting message before event row state made) :
    (handling setting agent message before).Safe () (download (backend setting) event)
      (fun outcome now => AtDocument setting message before event row now.1 now.2 ∧
        ∀ data, outcome = .ok data → setting.sha256 data = event.sha256 ∧
          mediaType (data.take 8) = .ok event.mediaType) (state, made) := by
  apply Safe.bind
  apply Safe.tryCatch
  apply Safe.bind
  apply handling_outside working
  intro answer after _ hAfter
  cases answer with
  | error error => exact ⟨hAfter, fun data h => by cases h⟩
  | ok opened =>
      apply (handling_readObject hAfter (event.sizeBytes + 1) []).mono
      intro outcome now hNow
      cases outcome with
      | error error => exact ⟨hNow, fun data h => by cases h⟩
      | ok data =>
          simp only
          split_ifs with hMismatch
          · exact ⟨hNow, fun other h => by cases h⟩
          · obtain ⟨-, hDigest⟩ := not_or.mp hMismatch
            cases hKind : mediaType (data.take 8) with
            | error error => exact ⟨hNow, fun other h => by cases h⟩
            | ok kind =>
                simp only
                split_ifs with hOther
                · exact ⟨hNow, fun other h => by cases h⟩
                · refine ⟨hNow, fun other h => ?_⟩
                  cases h
                  exact ⟨not_not.mp hDigest, hKind.trans (congrArg _ (not_not.mp hOther))⟩

/-- Indexing a verified original stores its output under the name of the row. -/
theorem handling_index (working : AtDocument setting message before event row state made)
    {data : Bytes} (hDigest : setting.sha256 data = event.sha256)
    (hKind : mediaType (data.take 8) = .ok event.mediaType) :
    (handling setting agent message before).Safe ()
      (index (backend setting) "original" data event.tenantId (some row.filename))
      (fun outcome now => AtDocument setting message before event row now.1 now.2 ∧
        (outcome = .ok () → HasIndexed setting row now.1 now.2)) (state, made) := by
  have hTenant : row.tenantId = event.tenantId := congrArg Prod.fst working.names.ownerKey
  have hSource : setting.sha256 data = row.sha256 := hDigest.trans working.describes.1.symm
  rw [mediaType_take] at hKind
  unfold index
  rw [hKind]
  simp only
  apply Safe.bind
  apply handling_outside working
  intro answer after hDatabase hAfter
  cases answer with
  | error error => exact ⟨hAfter, fun h => by cases h⟩
  | ok output =>
      have hDocument : outputDocument row output =
          { sha256 := (backend setting).sha256 data, mediaType := event.mediaType,
            pages := output.pages, chunks := output.chunks, entities := output.entities,
            embedModel := output.embedModel, embedDimension := output.embedDimension } := by
        rw [outputDocument, ← hSource, working.describes.2.2.1]
        rfl
      obtain ⟨now, held⟩ := hAfter.held
      apply Safe.alone_perform
      · exact fun _ => ⟨event, row, output, hAfter, hTenant.symm, hDocument.symm⟩
      · intro choice stored later within hPerform _
        have hUnprocessed : ¬Processed event (made ++ [⟨.outside (.compute data), .ok output⟩] ++
            [⟨.upsertDocument event.tenantId (storedName "original" (some row.filename)) _,
              stored⟩]) := by
          intro hProcessed
          rcases hProcessed.of_append with hMade | hLast
          · exact hAfter.unprocessed hMade
          · cases hLast
        rcases perform_upsert hPerform with ⟨hSame, raised, rfl⟩ | ⟨record, hPrepared, hStored⟩
        · refine ⟨⟨hAfter.names, hAfter.describes, hUnprocessed, now, hSame ▸ held⟩, ?_⟩
          exact fun h => by cases h
        · rw [← hDocument, ← hTenant] at hPrepared
          have hRecord := prepareDocument_ok hPrepared
          have hContent : record.contentKey = row.contentKey := by
            rw [hRecord]
            rfl
          have hMedia : record.mediaType = row.mediaType := by
            rw [hRecord]
            rfl
          refine ⟨⟨hAfter.names, hAfter.describes, hUnprocessed, _,
            hStored ▸ held.upsert within.unique hContent hMedia _ _⟩, fun _ => ?_⟩
          refine ⟨data, output, ?_, hSource, hStored ▸ held.holdsOutput within.unique hPrepared _⟩
          exact List.mem_append_left _ (List.mem_append_right _ (List.mem_singleton_self _))

theorem HasIndexed.read {request : Call} {answer : Except Failure (Response request)}
    (h : HasIndexed setting row state made) (hDatabase : after.database = state.database) :
    HasIndexed setting row after (made ++ [⟨request, answer⟩]) := by
  obtain ⟨data, output, hComputed, hDigest, holds⟩ := h
  exact ⟨data, output, List.mem_append_left _ hComputed, hDigest, hDatabase ▸ holds⟩

/-- Processing a document succeeds, or leaves the worker at it. -/
theorem handling_process (working : AtDocument setting message before event row state made)
    {document : StoredDocument} (hDocument : document.toDocumentRow = row) :
    (handling setting agent message before).Safe () (process (backend setting) event document)
      (fun outcome now => outcome = .ok () ∨
        AtDocument setting message before event row now.1 now.2) (state, made) := by
  subst hDocument
  apply Safe.bind
  apply (handling_markStatus working .processing none fun h => by cases h).mono
  rintro marked ⟨after, second⟩ (⟨hStatus, -⟩ | hAfter)
  · cases hStatus
  cases marked with
  | error error => exact Or.inr hAfter
  | ok marked =>
      apply Safe.bind
      apply handling_outside hAfter
      intro made now _ hNow
      cases made with
      | error error => exact Or.inr hNow
      | ok made =>
          apply Safe.bind
          apply Safe.tryFinally
          apply Safe.bind
          apply (handling_download hNow).mono
          rintro downloaded ⟨reached, third⟩ ⟨hReached, hData⟩
          cases downloaded with
          | error error =>
              apply handling_outside hReached
              intro removed later _ hLater
              cases removed with
              | error error => exact Or.inr hLater
              | ok removed => exact Or.inr hLater
          | ok data =>
              obtain ⟨hDigest, hKind⟩ := hData data rfl
              apply (handling_index hReached hDigest hKind).mono
              rintro indexed ⟨stored, fourth⟩ ⟨hStored, hIndexed⟩
              apply handling_outside hStored
              intro removed later hSame hLater
              cases removed with
              | error error => exact Or.inr hLater
              | ok removed =>
                  cases indexed with
                  | error error => exact Or.inr hLater
                  | ok indexed =>
                      apply (handling_markStatus hLater .processed none
                        fun _ => (hIndexed rfl).read hSame).mono
                      rintro answer finish (⟨-, rfl⟩ | hFinish)
                      · exact Or.inl rfl
                      · exact Or.inr hFinish

/-- A command on the stream, whatever it is answered. -/
theorem handling_stream (command : StreamCommand)
    {post : Except Failure command.Answer → DeliveryState × Exchanges → Prop}
    (hPost : ∀ answer after, after.database = state.database →
      post answer (after, made ++ [⟨.stream command, answer⟩])) :
    (handling setting agent message before).Safe () ((backend setting).stream command) post
      (state, made) := by
  have hRead : ¬(Call.stream command).IsWrite := fun hWrite => hWrite
  apply handling_read hRead trivial
  intro choice answer after _ _ hDatabase
  exact hPost answer after hDatabase

/-- A worker without a document: what it does must be all right anyhow. -/
abbrev Anyhow {Result : Type} : Except Failure Result → DeliveryState × Exchanges → Prop :=
  fun _ _ => True

theorem handling_deadLetter (error : String) (attempts : Nat) (now : DeliveryState × Exchanges) :
    (handling setting agent message before).Safe ()
      (deadLetter (backend setting) message error attempts) Anyhow now := by
  apply Safe.bind
  apply handling_stream
  intro answer after _
  cases answer with
  | error error => trivial
  | ok added =>
      apply handling_stream
      intro acknowledged later _
      trivial

theorem handling_fail (working : AtDocument setting message before event row state made)
    (error : String) (attempts : Nat) :
    (handling setting agent message before).Safe ()
      (fail (backend setting) message event error attempts) Anyhow (state, made) := by
  apply Safe.bind
  apply (handling_markStatus working .failed (some error) fun h => by cases h).mono
  rintro answer now _
  cases answer with
  | error error => trivial
  | ok marked => exact handling_deadLetter error attempts now

theorem handling_settle {now : DeliveryState × Exchanges} (attempts : Nat)
    (outcome : Except Failure Unit)
    (h : outcome = .ok () ∨ AtDocument setting message before event row now.1 now.2) :
    (handling setting agent message before).Safe ()
      (settle (backend setting) message event attempts outcome) Anyhow now := by
  cases outcome with
  | ok done =>
      apply handling_stream
      intro acknowledged later _
      trivial
  | error error =>
      have working := h.resolve_left fun hDone => by cases hDone
      simp only [settle]
      split_ifs
      · trivial
      · exact handling_fail working _ attempts

/-- A worker that has found the document of its event processes it, fails it or skips it. -/
theorem handling_found (settings : WorkerSettings)
    (working : AtDocument setting message before event row state made) (attempts : Nat)
    {document : StoredDocument} (hDocument : document.toDocumentRow = row) :
    (handling setting agent message before).Safe ()
      (handleLooked (backend setting) settings message event attempts (.ok document)) Anyhow
      (state, made) := by
  simp only [handleLooked]
  split_ifs
  · apply handling_stream
    intro acknowledged later _
    trivial
  · exact handling_fail working _ attempts
  · apply Safe.andThen
    apply (handling_process working hDocument).mono
    intro outcome now hOutcome
    exact handling_settle attempts outcome hOutcome

/-- A worker without a document gives the message up, or stops. -/
theorem handling_unknown (settings : WorkerSettings) (attempts : Nat) (error : Failure)
    (now : DeliveryState × Exchanges) :
    (handling setting agent message before).Safe ()
      (handleLooked (backend setting) settings message event attempts (.error error)) Anyhow
      now := by
  simp only [handleLooked]
  split_ifs
  · trivial
  · exact handling_deadLetter _ attempts now
  · trivial

/-- Only a document that the event describes is worked at. -/
theorem handling_valid (settings : WorkerSettings)
    (hValid : WorkerEvent.modelValidate setting.codec message.fields = some event)
    (hDatabase : state.database = before) (hMade : ∀ exchange ∈ made, ¬exchange.1.IsWrite)
    (attempts : Nat) :
    (handling setting agent message before).Safe ()
      (handleValid (backend setting) settings message event attempts) Anyhow (state, made) := by
  have hRead : ¬(Call.getDocument event.tenantId event.documentId).IsWrite := fun h => h
  apply Safe.andThen
  apply Safe.bind
  apply handling_read hRead trivial
  intro choice answer after hPerform _ hSame
  cases answer with
  | error error => exact handling_unknown settings attempts error _
  | ok found =>
      cases found with
      | none => exact handling_unknown settings attempts _ _
      | some document =>
          simp only
          split_ifs with hDescribes
          · have hFound : before.findById event.tenantId event.documentId =
                some document.toDocumentRow := by
              obtain ⟨middle, -, ⟨-, error, hError, -⟩ | ⟨own, hEffect, rfl | ⟨error, hError, -⟩⟩⟩ :=
                perform_cases hPerform
              · cases hError
              · simp only [effect, Option.some.injEq, Prod.mk.injEq, Except.ok.injEq,
                  hDatabase] at hEffect
                obtain ⟨row, hRow, rfl⟩ := Option.map_eq_some_iff.mp hEffect.1
                exact hRow
              · cases hError
            have names : NamesRow setting.codec message before event document.toDocumentRow :=
              ⟨hValid, hFound⟩
            refine handling_found settings ⟨names, hDescribes, fun hProcessed => ?_, ?_⟩
              attempts rfl
            · rcases hProcessed.of_append with hEarlier | hLast
              · exact hMade _ hEarlier trivial
              · cases hLast
            · have hKey := names.ownerKey
              refine ⟨document.toDocumentRow, ?_, SameIdentity.refl _, rfl⟩
              rw [show document.tenantId = event.tenantId from congrArg Prod.fst hKey,
                show document.id = event.documentId from congrArg Prod.snd hKey, hSame, hDatabase]
              exact hFound
          · exact handling_unknown settings attempts _ _

/-- Whatever the message and the answers are, its worker makes only permitted calls. -/
theorem handling_handle (settings : WorkerSettings) (hDatabase : state.database = before) :
    (handling setting agent message before).Safe ()
      (handle (backend setting) setting.codec settings message) Anyhow (state, []) := by
  apply Safe.bind
  apply handling_stream
  intro answer after hSame
  cases answer with
  | error error => trivial
  | ok attempts =>
      simp only
      split_ifs
      · trivial
      · cases hValid : WorkerEvent.modelValidate setting.codec message.fields with
        | none => exact handling_deadLetter _ attempts _
        | some event =>
            apply Safe.tryCatch
            apply (handling_valid settings hValid (hSame.trans hDatabase) ?_ attempts).mono
            · intro outcome now _
              cases outcome with
              | ok done => trivial
              | error error =>
                  simp only
                  split_ifs
                  · trivial
                  · trivial
            · intro exchange hExchange
              rw [List.mem_singleton.mp hExchange]
              exact fun h => h

end Handling

/-- A worker at the start of handling a message, alone with these tables. -/
def handlingAlone (setting : Setting) (settings : WorkerSettings) (message : StreamMessage)
    (before : DeliveryState) :
    Pool Unit (DeliveryState × Exchanges) Call Response Failure Unit :=
  (handle (backend setting) setting.codec settings message).alone before

/-- What a worker that is alone asks for is answered as any process is answered. -/
abbrev aloneStep (setting : Setting) (agent : Nat) :
    Pool Unit (DeliveryState × Exchanges) Call Response Failure Unit → Action Unit Choice Empty →
      Option (Pool Unit (DeliveryState × Exchanges) Call Response Failure Unit) :=
  Pool.step (Environment.alone fun state request choice => perform setting agent state choice request)

/-- Wherever the handling of a message has come to, it has kept to its own document if and
only if that document had a name, should it have been processed. -/
theorem handle_keepsToItsDocument_iff {setting : Setting} {agent : Nat} {settings : WorkerSettings}
    {message : StreamMessage} {before : DeliveryState} (unique : before.database.Unique)
    {actions : List (Action Unit Choice Empty)}
    {finish : Pool Unit (DeliveryState × Exchanges) Call Response Failure Unit}
    (hRun : Transition.run (aloneStep setting agent) actions
      (handlingAlone setting settings message before) = some finish) :
    KeepsToItsDocument setting message before.database finish.state.1.database finish.state.2 ↔
      ∀ event row, NamesRow setting.codec message before.database event row →
        Processed event finish.state.2 → row.filename ≠ "" := by
  have hStart : Within setting message before.database before [] := by
    refine ⟨unique, fun event _ => ChangesOnly.refl _ _, fun _ => ⟨rfl, ?_⟩, ?_⟩
    · exact fun exchange hExchange => absurd hExchange List.not_mem_nil
    · exact fun event row _ hProcessed => absurd hProcessed List.not_mem_nil
  have within := (Safe.alone_run hStart (handling_handle settings rfl) hRun).1
  constructor
  · intro keeps event row names hProcessed hEmpty
    obtain ⟨_, output, time, -, -, hKept, -⟩ := keeps.retained event row names hProcessed
    obtain ⟨_, output', time', -, -, hStored, -⟩ := within.stored event row names hProcessed
    have hName := congrArg DocumentRow.filename (Option.some.inj (hKept.symm.trans hStored))
    simp only [processedRow, hEmpty] at hName
    exact absurd hName (by decide)
  · intro hNamed
    refine ⟨within.others, within.refused, fun event row names hProcessed => ?_⟩
    have hStored := within.stored event row names hProcessed
    have hName : storedName "original" (some row.filename) = row.filename := by
      have hNonempty := hNamed event row names hProcessed
      rw [storedName, if_neg]
      rwa [String.isEmpty_iff]
    rw [hName] at hStored
    exact hStored

/-- The sample upload under a name, with its entry delivered to a worker. -/
def deliveredUpload (filename : String) : DeliveryState where
  database := { documents := [{ sampleUpload.record with filename }] }
  entries := [sampleEntry]
  delivered := 1
  pending := [⟨0, 1⟩]

theorem deliveredUpload_unique (filename : String) :
    (deliveredUpload filename).database.Unique :=
  ⟨List.nodup_singleton _, List.nodup_singleton _⟩

/-- The entry is looked up, its document downloaded, indexed and marked, and the entry
acknowledged. -/
def processingActions : List (Action Unit Choice Empty) :=
  List.replicate 5 (.advance () calm) ++ .advance () reading :: List.replicate 6 (.advance () calm)

/-- A document with a name is processed and keeps its name. -/
theorem handle_keepsToItsDocument_named :
    ∃ finish, Transition.run (aloneStep sampleSetting 0) processingActions
        (handlingAlone sampleSetting {} sampleEntry (deliveredUpload "report.pdf")) = some finish ∧
      Processed sampleUpload.event finish.state.2 ∧
      KeepsToItsDocument sampleSetting sampleEntry (deliveredUpload "report.pdf").database
        finish.state.1.database finish.state.2 := by
  have hFinish : (Transition.run (aloneStep sampleSetting 0) processingActions
      (handlingAlone sampleSetting {} sampleEntry (deliveredUpload "report.pdf"))).map
        (fun finish => decide (Processed sampleUpload.event finish.state.2)) = some true := by
    decide +kernel
  obtain ⟨finish, hRun, hProcessed⟩ := Option.map_eq_some_iff.mp hFinish
  refine ⟨finish, hRun, of_decide_eq_true hProcessed,
    (handle_keepsToItsDocument_iff (deliveredUpload_unique _) hRun).mpr ?_⟩
  intro event row names _ hEmpty
  have hRow := List.mem_singleton.mp (select_mem names.found).1
  rw [hRow] at hEmpty
  exact absurd hEmpty (by decide)

/-- A document that was uploaded under an empty name is called "original" afterwards. -/
theorem handle_keepsToItsDocument_unnamed :
    (deliveredUpload "").database.Unique ∧
      ∃ finish, Transition.run (aloneStep sampleSetting 0) processingActions
          (handlingAlone sampleSetting {} sampleEntry (deliveredUpload "")) = some finish ∧
        ¬KeepsToItsDocument sampleSetting sampleEntry (deliveredUpload "").database
          finish.state.1.database finish.state.2 := by
  have hFinish : (Transition.run (aloneStep sampleSetting 0) processingActions
      (handlingAlone sampleSetting {} sampleEntry (deliveredUpload ""))).map (fun finish =>
        (decide (Processed sampleUpload.event finish.state.2),
          (finish.state.1.database.findById "acme" ⟨1⟩).map DocumentRow.filename)) =
      some (true, some "original") := by
    decide +kernel
  obtain ⟨finish, hRun, hDone⟩ := Option.map_eq_some_iff.mp hFinish
  obtain ⟨hProcessed, hName⟩ := Prod.mk.inj hDone
  refine ⟨deliveredUpload_unique _, finish, hRun, fun keeps => ?_⟩
  have names : NamesRow sampleSetting.codec sampleEntry (deliveredUpload "").database
      sampleUpload.event { sampleUpload.record with filename := "" } :=
    ⟨WorkerEvent.modelValidate_streamFields libraryCodec_lawful sampleUpload.event, by decide⟩
  obtain ⟨_, output, time, -, -, hKept, -⟩ :=
    keeps.retained _ _ names (of_decide_eq_true hProcessed)
  have hFound : finish.state.1.database.findById "acme" ⟨1⟩ = some _ := hKept
  rw [hFound] at hName
  have hEmpty : "" = "original" := Option.some.inj hName
  exact absurd hEmpty (by decide)

end DocInsight.Delivery
