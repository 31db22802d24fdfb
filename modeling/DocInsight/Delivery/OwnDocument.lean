import DocInsight.Delivery.Knowledge
import DocInsight.Library.Alone
import DocInsight.Storage.DocumentFrame

/-! What a worker may do to the tables while it handles a message: every call it is
permitted to make leaves all documents alone but the one that the event names. -/
namespace DocInsight.Delivery

open DocInsight.Contracts DocInsight.Worker Interaction Interaction.Discipline Table
open DocInsight.Storage (ChangesOnly Held HoldsOutput processedRow outputDocument chunksOf
  entitiesOf)

abbrev Exchanges := List (Exchange Call Response Failure)

/-- A call with a possible effect on the tables. -/
def Call.IsWrite : Call → Prop
  | .outside _ | .stream _ | .getDocument _ _ => False
  | _ => True

def Call.IsObjectRead : Call → Prop
  | .outside (.openObject _) | .outside .readObject => True
  | _ => False

/-- The fields of a message are an event, and there is a row under its document's key. -/
structure NamesRow (codec : Codec) (message : StreamMessage) (database : Database)
    (event : WorkerEvent) (row : DocumentRow) : Prop where
  valid : WorkerEvent.modelValidate codec message.fields = some event
  found : database.findById event.tenantId event.documentId = some row

/-- Processing has succeeded: its last status change was answered. -/
def Processed (event : WorkerEvent) (made : Exchanges) : Prop :=
  ⟨.markStatus event.tenantId event.documentId .processed none, .ok ()⟩ ∈ made

/-- The exchange that makes an event's document processed. -/
def marksProcessed (event : WorkerEvent) : Exchange Call Response Failure → Bool
  | ⟨.markStatus tenantId id .processed none, .ok _⟩ =>
      tenantId = event.tenantId ∧ id = event.documentId
  | _ => false

instance (event : WorkerEvent) (made : Exchanges) : Decidable (Processed event made) :=
  decidable_of_iff (made.any (marksProcessed event)) <| by
    rw [List.any_eq_true]
    constructor
    · rintro ⟨exchange, hMade, hMarks⟩
      unfold marksProcessed at hMarks
      split at hMarks
      · obtain ⟨rfl, rfl⟩ := of_decide_eq_true hMarks
        exact hMade
      · cases hMarks
    · intro hMade
      exact ⟨_, hMade, decide_eq_true ⟨rfl, rfl⟩⟩

/-- The result of processing is stored: the row has this name and the metadata of output
that was computed from its content, and the chunks and entities are those of the output. -/
def StoresResult (setting : Setting) (filename : String) (row : DocumentRow) (made : Exchanges)
    (after : Database) : Prop :=
  ∃ data output time, ⟨.outside (.compute data), .ok output⟩ ∈ made ∧
    setting.sha256 data = row.sha256 ∧
    after.findById row.tenantId row.id = some (processedRow filename output time row) ∧
    chunksOf after row = chunkRows setting.uuid5 row.tenantId row.id output.chunks ∧
    entitiesOf after row = entityRows setting.uuid5 row.tenantId row.id output.entities

/-- What handling a message may do to the tables, by the calls it has made: only the
document named by the event changes, nothing does and no object is read where the event is
invalid or does not describe its row, and success keeps what was registered. -/
structure KeepsToItsDocument (setting : Setting) (message : StreamMessage)
    (before after : Database) (made : Exchanges) : Prop where
  others : ∀ event, WorkerEvent.modelValidate setting.codec message.fields = some event →
    ChangesOnly (eventKey event) before after
  refused : (∀ event row, NamesRow setting.codec message before event row → ¬Describes event row) →
    after = before ∧ ∀ exchange ∈ made, ¬exchange.1.IsWrite ∧ ¬exchange.1.IsObjectRead
  retained : ∀ event row, NamesRow setting.codec message before event row → Processed event made →
    StoresResult setting row.filename row made after

section Steps
variable {setting : Setting} {agent : Nat} {state after : DeliveryState} {choice : Choice}
  {request : Call} {answer : Except Failure (Response request)}

@[simp] theorem note_database (agent : Nat) (request : Call)
    (answer : Except Failure (Response request)) (state : DeliveryState) :
    (note agent request answer state).database = state.database := by
  obtain ⟨attempt, history, hNote, -⟩ := note_cases agent request answer state
  rw [hNote]
  rfl

/-- Every call of a worker but a write leaves the tables alone. -/
theorem perform_database (hRead : ¬request.IsWrite)
    (h : perform setting agent state choice request = some (answer, after)) :
    after.database = state.database := by
  obtain ⟨middle, rfl, ⟨rfl, -⟩ | ⟨own, hEffect, -⟩⟩ := perform_cases h
  · rw [note_database]
  · rw [note_database]
    cases request with
    | outside query =>
        cases hEffect
        rfl
    | stream command =>
        simp only [effect, Option.map_eq_some_iff] at hEffect
        obtain ⟨⟨own, later⟩, hStream, hAfter⟩ := hEffect
        cases hAfter
        obtain ⟨delivered, pending, deadLetters, history, rfl, -, -⟩ := streamEffect_cases hStream
        rfl
    | getDocument tenantId id =>
        cases hEffect
        rfl
    | _ => exact absurd trivial hRead

/-- A status change is made or not; once it is answered, it is made and had a row. -/
theorem perform_markStatus {tenantId : String} {id : UUID} {status : DocumentStatus}
    {error : Option String} {answer : Except Failure Unit}
    (h : perform setting agent state choice (.markStatus tenantId id status error) =
      some (answer, after)) :
    (after.database = state.database ∧ ∃ error, answer = .error error) ∨
      after.database = state.database.markStatus tenantId id status error := by
  obtain ⟨middle, rfl, ⟨rfl, error, hError, -⟩ | ⟨own, hEffect, hAnswer⟩⟩ := perform_cases h
  · rw [note_database]
    exact Or.inl ⟨rfl, error, hError⟩
  · rw [note_database]
    simp only [effect] at hEffect
    split at hEffect
    · cases hEffect
      refine Or.inl ⟨rfl, ?_⟩
      rcases hAnswer with rfl | ⟨error, rfl, -⟩
      · exact ⟨_, rfl⟩
      · exact ⟨_, rfl⟩
    · cases hEffect
      rw [DeliveryState.store_database]
      exact Or.inr rfl

/-- An upsert is made or not; once it is answered, it is made of a prepared record. -/
theorem perform_upsert {tenantId filename : String} {document : Document}
    {answer : Except Failure Unit}
    (h : perform setting agent state choice (.upsertDocument tenantId filename document) =
      some (answer, after)) :
    (after.database = state.database ∧ ∃ error, answer = .error error) ∨
      ∃ record, prepareDocument tenantId filename document choice.identifier choice.now =
          .ok record ∧
        after.database = state.database.upsertDocument setting.uuid5 record choice.now := by
  obtain ⟨middle, rfl, ⟨rfl, error, hError, -⟩ | ⟨own, hEffect, hAnswer⟩⟩ := perform_cases h
  · exact Or.inl ⟨rfl, error, hError⟩
  · rcases upsertEffect_cases hEffect with ⟨rfl, rfl⟩ | ⟨record, row, hPrepared, rfl, -, rfl⟩
    · refine Or.inl ⟨rfl, ?_⟩
      rcases hAnswer with rfl | ⟨error, rfl, -⟩
      · exact ⟨_, rfl⟩
      · exact ⟨_, rfl⟩
    · exact Or.inr ⟨record, hPrepared, DeliveryState.store_database _ _ _⟩

end Steps

section Handling
variable (setting : Setting) (message : StreamMessage) (before : Database)

/-- What holds of the tables after each call of a worker that handles a message. -/
structure Within (state : DeliveryState) (made : Exchanges) : Prop where
  unique : state.database.Unique
  others : ∀ event, WorkerEvent.modelValidate setting.codec message.fields = some event →
    ChangesOnly (eventKey event) before state.database
  refused : (∀ event row, NamesRow setting.codec message before event row → ¬Describes event row) →
    state.database = before ∧ ∀ exchange ∈ made, ¬exchange.1.IsWrite ∧ ¬exchange.1.IsObjectRead
  stored : ∀ event row, NamesRow setting.codec message before event row → Processed event made →
    StoresResult setting (storedName "original" (some row.filename)) row made state.database

/-- A worker at the document of its event, which is not processed yet. -/
structure AtDocument (event : WorkerEvent) (row : DocumentRow) (state : DeliveryState)
    (made : Exchanges) : Prop where
  names : NamesRow setting.codec message before event row
  describes : Describes event row
  unprocessed : ¬Processed event made
  held : ∃ now, Held row state.database now

/-- The output of the document's content is computed and stored. -/
def HasIndexed (row : DocumentRow) (state : DeliveryState) (made : Exchanges) : Prop :=
  ∃ data output, ⟨.outside (.compute data), .ok output⟩ ∈ made ∧ setting.sha256 data = row.sha256 ∧
    HoldsOutput setting.uuid5 (storedName "original" (some row.filename)) output row state.database

/-- What a worker knows before each call: it writes only to the document it is at, and
marks it processed only after its output is stored. -/
def Permitted (state : DeliveryState) (made : Exchanges) : Call → Prop
  | .outside query => (Call.outside query).IsObjectRead →
      ∃ event row, AtDocument setting message before event row state made
  | .stream _ | .getDocument _ _ => True
  | .markStatus tenantId id status _ => ∃ event row,
      AtDocument setting message before event row state made ∧ (tenantId, id) = row.ownerKey ∧
        (status = .processed → HasIndexed setting row state made)
  | .upsertDocument tenantId _ document => ∃ event row output,
      AtDocument setting message before event row state made ∧ tenantId = row.tenantId ∧
        document = outputDocument row output
  | _ => False

variable {setting message before}

theorem NamesRow.ownerKey {codec : Codec} {event : WorkerEvent} {row : DocumentRow}
    (names : NamesRow codec message before event row) : row.ownerKey = eventKey event :=
  (select_mem names.found).2

theorem StoresResult.mono {filename : String} {row : DocumentRow} {made : Exchanges}
    {after : Database} (h : StoresResult setting filename row made after)
    (exchange : Exchange Call Response Failure) :
    StoresResult setting filename row (made ++ [exchange]) after := by
  obtain ⟨data, output, time, hComputed, hRest⟩ := h
  exact ⟨data, output, time, List.mem_append_left _ hComputed, hRest⟩

/-- Only one status change makes an event's document processed. -/
theorem Processed.of_append {event : WorkerEvent} {made : Exchanges} {request : Call}
    {answer : Except Failure (Response request)}
    (h : Processed event (made ++ [⟨request, answer⟩])) :
    Processed event made ∨
      (⟨request, answer⟩ : Exchange Call Response Failure) =
        ⟨.markStatus event.tenantId event.documentId .processed none, .ok ()⟩ := by
  rcases List.mem_append.mp h with hMade | hLast
  · exact Or.inl hMade
  · exact Or.inr (List.mem_singleton.mp hLast).symm

theorem eq_of_processed {tenantId tenantId' : String} {id id' : UUID} {status : DocumentStatus}
    {error : Option String} {answer : Except Failure Unit}
    (h : (⟨.markStatus tenantId id status error, answer⟩ : Exchange Call Response Failure) =
      ⟨.markStatus tenantId' id' .processed none, .ok ()⟩) :
    (status = .processed ∧ error = none) ∧ answer = .ok () := by
  cases h
  exact ⟨⟨rfl, rfl⟩, rfl⟩

variable {state after : DeliveryState} {made : Exchanges} {agent : Nat} {choice : Choice}

theorem Within.read {request : Call} {answer : Except Failure (Response request)}
    (within : Within setting message before state made) (hRead : ¬request.IsWrite)
    (hObject : request.IsObjectRead →
      ∃ event row, AtDocument setting message before event row state made)
    (hDatabase : after.database = state.database) :
    Within setting message before after (made ++ [⟨request, answer⟩]) where
  unique := hDatabase ▸ within.unique
  others event hValid := hDatabase ▸ within.others event hValid
  refused hRefused := by
    obtain ⟨hSame, hMade⟩ := within.refused hRefused
    refine ⟨hDatabase.trans hSame, fun exchange hExchange => ?_⟩
    rcases List.mem_append.mp hExchange with hEarlier | hLast
    · exact hMade exchange hEarlier
    · rw [List.mem_singleton.mp hLast]
      refine ⟨hRead, fun hReads => ?_⟩
      obtain ⟨event, row, working⟩ := hObject hReads
      exact hRefused event row working.names working.describes
  stored event row names hProcessed := by
    rw [hDatabase]
    rcases hProcessed.of_append with hMade | hLast
    · exact (within.stored event row names hMade).mono _
    · cases hLast
      exact absurd trivial hRead

/-- A write to the document a worker is at. -/
theorem Within.write {event : WorkerEvent} {row : DocumentRow} {request : Call}
    {answer : Except Failure (Response request)}
    (within : Within setting message before state made)
    (working : AtDocument setting message before event row state made)
    (hUnique : after.database.Unique)
    (hOthers : ChangesOnly row.ownerKey state.database after.database)
    (hStored : (⟨request, answer⟩ : Exchange Call Response Failure) =
        ⟨.markStatus event.tenantId event.documentId .processed none, .ok ()⟩ →
      StoresResult setting (storedName "original" (some row.filename)) row made after.database) :
    Within setting message before after (made ++ [⟨request, answer⟩]) where
  unique := hUnique
  others other hValid := by
    cases hValid.symm.trans working.names.valid
    exact (within.others event hValid).trans (working.names.ownerKey ▸ hOthers)
  refused hRefused := absurd working.describes (hRefused event row working.names)
  stored other later names hProcessed := by
    cases names.valid.symm.trans working.names.valid
    cases names.found.symm.trans working.names.found
    rcases hProcessed.of_append with hMade | hLast
    · exact absurd hMade working.unprocessed
    · exact (hStored hLast).mono _

/-- Whatever a permitted call is answered, the worker has kept to its document. -/
theorem within_step (state : DeliveryState) (made : Exchanges) (request : Call) (choice : Choice)
    (answer : Except Failure (Response request)) (after : DeliveryState)
    (within : Within setting message before state made)
    (permitted : Permitted setting message before state made request)
    (h : perform setting agent state choice request = some (answer, after)) :
    Within setting message before after (made ++ [⟨request, answer⟩]) := by
  cases request with
  | outside query =>
      have hRead : ¬(Call.outside query).IsWrite := fun hWrite => hWrite
      exact within.read hRead permitted (perform_database hRead h)
  | stream command =>
      have hRead : ¬(Call.stream command).IsWrite := fun hWrite => hWrite
      exact within.read hRead (fun hReads => hReads.elim) (perform_database hRead h)
  | getDocument tenantId id =>
      have hRead : ¬(Call.getDocument tenantId id).IsWrite := fun hWrite => hWrite
      exact within.read hRead (fun hReads => hReads.elim) (perform_database hRead h)
  | markStatus tenantId id status error =>
      obtain ⟨event, row, working, hKey, hIndexed⟩ := permitted
      cases hKey
      rcases perform_markStatus h with ⟨hSame, raised, rfl⟩ | hMarked
      · apply within.write working
        · exact hSame ▸ within.unique
        · exact hSame ▸ ChangesOnly.refl _ _
        · intro hLast
          cases (eq_of_processed hLast).2
      · apply within.write working
        · rw [hMarked]
          exact within.unique.markStatus _ _ _ _
        · rw [hMarked]
          exact Storage.changesOnly_markStatus row.ownerKey status error state.database
        · intro hLast
          obtain ⟨⟨rfl, rfl⟩, -⟩ := eq_of_processed hLast
          obtain ⟨data, output, hComputed, hDigest, holds⟩ := hIndexed rfl
          obtain ⟨time, now, hFound, hRow⟩ := holds.stored
          refine ⟨data, output, time, hComputed, hDigest, ?_, ?_, ?_⟩
          · have hAfter := Storage.findById_markStatus row.ownerKey .processed none state.database
            rw [hMarked]
            exact hAfter.trans (by rw [DocumentRow.ownerKey, hFound, Option.map_some, hRow])
          · rw [hMarked]
            exact holds.chunks
          · rw [hMarked]
            exact holds.entities
  | upsertDocument tenantId filename document =>
      obtain ⟨event, row, output, working, rfl, rfl⟩ := permitted
      obtain ⟨now, held⟩ := working.held
      rcases perform_upsert h with ⟨hSame, raised, rfl⟩ | ⟨record, hPrepared, hStored⟩
      · apply within.write working
        · exact hSame ▸ within.unique
        · exact hSame ▸ ChangesOnly.refl _ _
        · intro hLast
          cases hLast
      · have hContent : record.contentKey = row.contentKey := by
          rw [prepareDocument_ok hPrepared]
          rfl
        apply within.write working
        · rw [hStored]
          refine within.unique.upsertDocument _ _ fun hAbsent => ?_
          have hFound := held.findByContent within.unique
          rw [show record.tenantId = row.tenantId from congrArg Prod.fst hContent,
            show record.sha256 = row.sha256 from congrArg Prod.snd hContent, hFound] at hAbsent
          cases hAbsent
        · rw [hStored]
          exact held.changesOnly_upsert within.unique hContent _ _
        · intro hLast
          cases hLast
  | _ => exact permitted.elim

end Handling

end DocInsight.Delivery
