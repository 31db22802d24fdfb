import DocInsight.Delivery.Growth

/-! What workers and relays know before each call, whatever others do in between. -/
namespace DocInsight.Delivery

open DocInsight.Contracts DocInsight.Worker Interaction Table

/-- The document an event names. -/
def eventKey (event : WorkerEvent) : String × UUID := (event.tenantId, event.documentId)

/-- Some transaction stored output of the current version for the document. -/
def CompletedBefore (event : WorkerEvent) (history : List Logged) : Prop :=
  ∃ row, .committed row ∈ history ∧ row.ownerKey = eventKey event ∧ completed row = true

/-- Some transaction stored the failure of the document. -/
def FailedBefore (event : WorkerEvent) (error : String) (history : List Logged) : Prop :=
  ∃ row, .committed row ∈ history ∧ row.ownerKey = eventKey event ∧ row.status = .failed ∧
    row.error = some error

/-- A durable outcome of an entry: its document is completed, or the entry is among the
dead letters. There, an event that its worker found to describe its document was stored as
failed before, with the same error. -/
def Durable (codec : Codec) (fields : Fields) (history : List Logged) : Prop :=
  (∃ event, WorkerEvent.modelValidate codec fields = some event ∧
    CompletedBefore event history) ∨
  ∃ agent error attempts before,
    .deadLettered agent (deadLetterFields fields error attempts) :: before <:+ history ∧
    ∀ event row, WorkerEvent.modelValidate codec fields = some event →
      lastLookup agent before = some row → Describes event row → FailedBefore event error before

theorem CompletedBefore.mono {event : WorkerEvent} {before after : List Logged}
    (h : CompletedBefore event before) (hAfter : before <:+ after) :
    CompletedBefore event after := by
  obtain ⟨row, hRow, hRest⟩ := h
  exact ⟨row, hAfter.subset hRow, hRest⟩

theorem FailedBefore.mono {event : WorkerEvent} {error : String} {before after : List Logged}
    (h : FailedBefore event error before) (hAfter : before <:+ after) :
    FailedBefore event error after := by
  obtain ⟨row, hRow, hRest⟩ := h
  exact ⟨row, hAfter.subset hRow, hRest⟩

theorem Durable.mono {codec : Codec} {fields : Fields} {before after : List Logged}
    (h : Durable codec fields before) (hAfter : before <:+ after) :
    Durable codec fields after := by
  rcases h with ⟨event, hValid, hCompleted⟩ | ⟨agent, error, attempts, earlier, hLetter, hFailed⟩
  · exact Or.inl ⟨event, hValid, hCompleted.mono hAfter⟩
  · exact Or.inr ⟨agent, error, attempts, earlier, hLetter.trans hAfter, hFailed⟩

/-- An entry that no document can wait for: it names none, or one it does not describe. -/
def Barren (codec : Codec) (fields : Fields) (rows : List DocumentRow) : Prop :=
  ∀ event, WorkerEvent.modelValidate codec fields = some event →
    ∃ row ∈ rows, row.ownerKey = eventKey event ∧ ¬ Describes event row

theorem describes_iff_of_same {event : WorkerEvent} {row later : DocumentRow}
    (hSame : SameIdentity row later) (hMedia : later.mediaType = row.mediaType) :
    Describes event later ↔ Describes event row := by
  unfold Describes
  rw [hSame.sha256, hSame.objectKey, hMedia, hSame.sizeBytes]

theorem Barren.mono {codec : Codec} {fields : Fields} {before after : List DocumentRow}
    (h : Barren codec fields before) (hAfter : Continues before after) :
    Barren codec fields after := by
  intro event hValid
  obtain ⟨row, hRow, hKey, hOther⟩ := h event hValid
  obtain ⟨later, hLater, hSame, hMedia⟩ := hAfter row hRow
  refine ⟨later, hLater, hSame.ownerKey.trans hKey, ?_⟩
  rwa [describes_iff_of_same hSame hMedia]

/-- Reads raise neither `LookupError` nor `ValueError`; a row that is not there is no
error to them. -/
def ReadsAnswer (setting : Setting) : Prop :=
  ∀ tenantId id error, setting.raises (.getDocument tenantId id) error = true →
    error.isReference = false

/-- What a worker keeps up between its own calls: its attempt and its last lookup. -/
structure Keeps (agent : Nat) (before after : DeliveryState) : Prop extends
    Grows before after where
  entry : (after.attempts agent).entry = (before.attempts agent).entry
  lookup : lastLookup agent after.history = lastLookup agent before.history

theorem Keeps.of_spares {agent : Nat} {before after : DeliveryState} (grows : Grows before after)
    (spares : Spares agent before after) : Keeps agent before after :=
  ⟨grows, by rw [spares.attempt], spares.lookup⟩

section Knowledge
variable (codec : Codec) (agent : Nat) (entry : StreamMessage) (event : WorkerEvent)

/-- The agent is at a delivery of a valid entry. -/
structure Handles (state : DeliveryState) : Prop where
  received : entry ∈ state.entries
  delivered : entry.id < state.delivered
  valid : WorkerEvent.modelValidate codec entry.fields = some event
  attempt : (state.attempts agent).entry = some entry.id

/-- The agent has found the document of the entry, and found it not completed. -/
structure Working (state : DeliveryState) : Prop extends
    Handles codec agent entry event state where
  looked : ∃ row, lastLookup agent state.history = some row ∧ row.ownerKey = eventKey event ∧
    completed row = false
  stored : ∃ row ∈ state.database.documents, row.ownerKey = eventKey event ∧ Describes event row

variable {codec agent entry event}

theorem Handles.keeps {state now : DeliveryState} (h : Handles codec agent entry event state)
    (keeps : Keeps agent state now) : Handles codec agent entry event now :=
  ⟨keeps.toGrows.mem h.received, h.delivered.trans_le keeps.delivered, h.valid, keeps.entry.trans h.attempt⟩

theorem Working.keeps {state now : DeliveryState} (h : Working codec agent entry event state)
    (keeps : Keeps agent state now) : Working codec agent entry event now := by
  refine ⟨h.toHandles.keeps keeps, ?_, ?_⟩
  · rw [keeps.lookup]
    exact h.looked
  · obtain ⟨row, hRow, hKey, hDescribes⟩ := h.stored
    obtain ⟨later, hLater, hSame, hMedia⟩ := keeps.documents row hRow
    exact ⟨later, hLater, hSame.ownerKey.trans hKey,
      (describes_iff_of_same hSame hMedia).mpr hDescribes⟩

end Knowledge

/-- What an agent has seen logged since its latest lookup. -/
def sinceLookup (agent : Nat) : List Logged → List Logged
  | [] => []
  | .looked other found :: rest =>
      if other = agent then [] else .looked other found :: sinceLookup agent rest
  | logged :: rest => logged :: sinceLookup agent rest

/-- The stream: entries are numbered in order and delivered in order, and whatever is
pending or settled was delivered. -/
structure Queued (state : DeliveryState) : Prop where
  entryIds : state.entries.map StreamMessage.id = List.range state.entries.length
  delivered : state.delivered ≤ state.entries.length
  pending : ∀ entry ∈ state.pending, entry.id < state.delivered
  settled : ∀ agent id, state.attempts agent = ⟨some id, true⟩ → id < state.delivered

/-- How often an event was relayed. -/
def relayCount (id : UUID) (history : List Logged) : Nat :=
  history.countP fun
    | .relayed _ _ event _ => event.eventId = id
    | _ => false

/-- How many transactions that had relayed an event ended without their marks. -/
def abandonCount (id : UUID) (history : List Logged) : Nat :=
  history.countP fun
    | .abandoned _ published => published.contains id
    | _ => false

/-- The locks of relays: a row has one holder and is not published, what a relay has
published it holds, and it marks only what it has published. -/
structure Locked (state : DeliveryState) : Prop where
  exclusive : ∀ first second id, (first, id) ∈ state.locks → (second, id) ∈ state.locks →
    first = second
  unpublished : ∀ agent id, (agent, id) ∈ state.locks → ∀ row ∈ state.database.outbox,
    row.id = id → row.publishedAt = none
  held : ∀ agent, ∀ id ∈ (state.transactions agent).published, (agent, id) ∈ state.locks
  marked : ∀ agent, (state.transactions agent).marked ⊆ (state.transactions agent).published

/-- Nobody has relayed the event since its row was last free and unpublished. -/
def Unclaimed (id : UUID) (state : DeliveryState) : Prop :=
  (∀ agent, id ∉ (state.transactions agent).published) ∧
    ∀ row ∈ state.database.outbox, row.id = id → row.publishedAt = none

/-- The outbox and the stream: events are under their own identifiers and describe their
documents, whatever is relayed comes from the outbox, and it is relayed before it is
published, at most once for every transaction that does not end without its marks. -/
structure Relayed (codec : Codec) (state : DeliveryState) : Prop where
  outboxIds : Keyed OutboxRow.id state.database.outbox
  events : ∀ row ∈ state.database.outbox, ∃ event : WorkerEvent,
    row.payload = event.toDocumentUploaded ∧ event.eventId = row.id ∧
      event.tenantId = row.tenantId ∧
      ∃ stored ∈ state.database.documents, stored.ownerKey = eventKey event ∧
        Describes event stored
  relayed : ∀ agent tenantId event id, .relayed agent tenantId event id ∈ state.history →
    ⟨id, event.streamFields codec⟩ ∈ state.entries ∧
      ∃ row ∈ state.database.outbox, row.id = event.eventId ∧ row.tenantId = tenantId ∧
        event = { row.payload with traceparent := event.traceparent }
  announced : ∀ agent, ∀ id ∈ (state.transactions agent).published,
    0 < relayCount id state.history
  published : ∀ row ∈ state.database.outbox, row.publishedAt ≠ none →
    0 < relayCount row.id state.history
  counts : ∀ id, relayCount id state.history ≤ abandonCount id state.history + 1
  unclaimed : ∀ id, Unclaimed id state →
    relayCount id state.history ≤ abandonCount id state.history

/-- The rows and the history: rows are unique and are what was committed, a row that an
agent has not seen was committed since it looked, and whatever was acknowledged had a
durable outcome before. -/
structure Recorded (codec : Codec) (state : DeliveryState) : Prop where
  unique : state.database.Unique
  committed : ∀ row ∈ state.database.documents, .committed row ∈ state.history
  living : ∀ row, .committed row ∈ state.history →
    ∃ later ∈ state.database.documents, later.ownerKey = row.ownerKey
  looked : ∀ agent row, lastLookup agent state.history = some row →
    ∀ current ∈ state.database.documents, current.ownerKey = row.ownerKey →
      current = row ∨ .committed current ∈ sinceLookup agent state.history
  acknowledged : ∀ agent entry earlier, .acknowledged agent entry :: earlier <:+ state.history →
    Durable codec entry.fields earlier

structure Sound (codec : Codec) (state : DeliveryState) : Prop extends
    Queued state, Locked state, Relayed codec state, Recorded codec state

theorem Queued.entry_eq {state : DeliveryState} (queued : Queued state)
    {first second : StreamMessage} (hFirst : first ∈ state.entries)
    (hSecond : second ∈ state.entries) (hId : first.id = second.id) : first = second := by
  have keyed : Keyed StreamMessage.id state.entries := by
    rw [Keyed, queued.entryIds]
    exact List.nodup_range
  exact keyed.eq_of_key hFirst hSecond hId

/-- What an agent must know before a call. -/
def Guard (setting : Setting) (agent : Nat) (state : DeliveryState) : Call → Prop
  | .getDocument tenantId id => ∃ entry event,
      Handles setting.codec agent entry event state ∧ eventKey event = (tenantId, id)
  | .markStatus tenantId id status _ => status ≠ .uploaded ∧ ∃ entry event,
      Working setting.codec agent entry event state ∧ eventKey event = (tenantId, id)
  | .upsertDocument tenantId filename document =>
      UpsertsKnown state (.upsertDocument tenantId filename document) ∧
        document.pipelineVersion = pipelineVersion
  | .stream (.acknowledge id) => ∀ entry ∈ state.entries, entry.id = id →
      Durable setting.codec entry.fields state.history ∧
        (ReadsAnswer setting → state.attempts agent = ⟨some id, true⟩ ∨
          Barren setting.codec entry.fields state.database.documents)
  | .publish event => ∃ row ∈ state.database.outbox,
      row.tenantId = (state.transactions agent).tenantId ∧
        event = { row.payload with traceparent := event.traceparent } ∧
        (agent, row.id) ∈ state.locks ∧ row.id ∉ (state.transactions agent).published
  | .setPublished _ id => id ∈ (state.transactions agent).published
  | .commit => (state.transactions agent).published ⊆ (state.transactions agent).marked
  | _ => True

theorem Guard.upsertsKnown {setting : Setting} {agent : Nat} {state : DeliveryState}
    {request : Call} (h : Guard setting agent state request) : UpsertsKnown state request := by
  cases request with
  | upsertDocument tenantId filename document => exact h.1
  | _ => trivial

end DocInsight.Delivery
