import DocInsight.Delivery.Acknowledgement
import Mathlib.Data.List.Perm.Subperm

/-! The relay delivers every event at least once and invents none, with any number of
relays and with failures and crashes at every call. -/
namespace DocInsight.Delivery

open DocInsight.Contracts DocInsight.Worker Interaction

/-- Whether an entry is one that a relay has added for an event. -/
def relayedFor (history : List Logged) (id : UUID) (entry : StreamMessage) : Bool :=
  history.any fun
    | .relayed _ _ event number => event.eventId = id ∧ number = entry.id
    | _ => false

/-- The entries that relays have added for an event. -/
def relayedEntries (id : UUID) (state : DeliveryState) : List StreamMessage :=
  state.entries.filter (relayedFor state.history id)

/-- What the relays of a deployment have delivered. -/
structure DeliversOutbox (codec : Codec) (state : DeliveryState) : Prop where
  /-- Every published row has an entry with its event's identifier. -/
  delivered : ∀ row ∈ state.database.outbox, row.publishedAt ≠ none →
    ∃ entry ∈ relayedEntries row.id state,
      entry.fields.lookup "event_id" = some (codec.writeUUID row.id)
  /-- What is relayed in a transaction of a tenant is the event of one of its rows. -/
  genuine : ∀ agent tenantId event id, .relayed agent tenantId event id ∈ state.history →
    ⟨id, event.streamFields codec⟩ ∈ state.entries ∧
      ∃ row ∈ state.database.outbox, row.id = event.eventId ∧ row.tenantId = tenantId ∧
        event = { row.payload with traceparent := event.traceparent }
  /-- No two open transactions have published one row. -/
  exclusive : ∀ first second, ∀ id ∈ (state.transactions first).published,
    id ∈ (state.transactions second).published → first = second
  /-- Only transactions that do not commit let an event be relayed again. -/
  bounded : ∀ id, (relayedEntries id state).length ≤ abandonCount id state.history + 1

section Counting
variable {setting : Setting} {codec : Codec} {state : DeliveryState} {id : UUID}

/-- The numbers of the entries that are logged for an event. -/
def relayedNumber (id : UUID) : Logged → Option Nat
  | .relayed _ _ event number => if event.eventId = id then some number else none
  | _ => none

theorem length_filterMap_relayedNumber (history : List Logged) :
    (history.filterMap (relayedNumber id)).length = relayCount id history := by
  induction history with
  | nil => rfl
  | cons logged history ih =>
      cases logged with
      | relayed agent tenantId event number =>
          rw [relayCount_relayed, ← ih]
          by_cases hEvent : event.eventId = id
          · simp [relayedNumber, hEvent]
          · simp [relayedNumber, hEvent]
      | abandoned agent published =>
          rw [relayCount_abandoned, ← ih]
          rfl
      | _ =>
          rw [relayCount_cons rfl, ← ih]
          rfl

theorem relayedFor_iff {entry : StreamMessage} {history : List Logged} :
    relayedFor history id entry = true ↔ ∃ agent tenantId event,
      .relayed agent tenantId event entry.id ∈ history ∧ event.eventId = id := by
  constructor
  · intro h
    obtain ⟨logged, hLogged, hEntry⟩ := List.any_eq_true.mp h
    cases logged with
    | relayed agent tenantId event number =>
        obtain ⟨hEvent, hNumber⟩ := of_decide_eq_true hEntry
        exact ⟨agent, tenantId, event, hNumber ▸ hLogged, hEvent⟩
    | _ => cases hEntry
  · rintro ⟨agent, tenantId, event, hLogged, hEvent⟩
    exact List.any_eq_true.mpr ⟨_, hLogged, decide_eq_true ⟨hEvent, rfl⟩⟩

/-- Entries have numbers of their own, so there are no more of them than were logged. -/
theorem length_relayedEntries_le (queued : Queued state) :
    (relayedEntries id state).length ≤ relayCount id state.history := by
  have hNodup : ((relayedEntries id state).map StreamMessage.id).Nodup := by
    have hAll : (state.entries.map StreamMessage.id).Nodup := by
      rw [queued.entryIds]
      exact List.nodup_range
    exact hAll.sublist (List.filter_sublist.map _)
  have hSubset : (relayedEntries id state).map StreamMessage.id ⊆
      state.history.filterMap (relayedNumber id) := by
    intro number hNumber
    obtain ⟨entry, hEntry, rfl⟩ := List.mem_map.mp hNumber
    obtain ⟨agent, tenantId, event, hLogged, hEvent⟩ :=
      relayedFor_iff.mp (List.mem_filter.mp hEntry).2
    exact List.mem_filterMap.mpr ⟨_, hLogged, if_pos hEvent⟩
  have hLength := (List.subperm_of_subset hNodup hSubset).length_le
  rwa [List.length_map, length_filterMap_relayedNumber] at hLength

theorem DeliversOutbox.of_sound (sound : Sound codec state) : DeliversOutbox codec state := by
  refine ⟨?_, sound.relayed, ?_, ?_⟩
  · intro row hRow hPublished
    obtain ⟨logged, hLogged, hId⟩ :=
      List.countP_pos_iff.mp (sound.toRelayed.published row hRow hPublished)
    cases logged with
    | relayed agent tenantId event number =>
        obtain ⟨hEntry, -⟩ := sound.relayed agent tenantId event number hLogged
        have hEvent : event.eventId = row.id := of_decide_eq_true hId
        refine ⟨_, List.mem_filter.mpr ⟨hEntry, ?_⟩, ?_⟩
        · exact relayedFor_iff.mpr ⟨agent, tenantId, event, hLogged, hEvent⟩
        · rw [← hEvent]
          rfl
    | _ => cases hId
  · intro first second id hFirst hSecond
    exact sound.exclusive first second id (sound.held first id hFirst)
      (sound.held second id hSecond)
  · exact fun id => (length_relayedEntries_le sound.toQueued).trans (sound.counts id)

end Counting

/-- In every deployment that is reached, the relays deliver the outbox. -/
theorem relays_deliverOutbox {setting : Setting} {processes : Nat → Process} {moves : List Move}
    {reached : Deployment}
    (hRun : Transition.run (step setting) moves (start setting processes) = some reached) :
    DeliversOutbox setting.codec reached.state :=
  DeliversOutbox.of_sound (run_sound hRun)

/-- A relay publishes the upload and crashes before its commit; another one follows. -/
def relayedTwiceMoves : List Move :=
  .event (.register sampleUpload) :: List.replicate 6 (.advance 0 calm) ++ .crash 0 ::
    List.replicate 7 (.advance 1 calm)

def sampleRelays : Nat → Process := fun _ => .relay ["acme"] 10 1

theorem relays_deliverOutbox_afterCrash :
    ∃ reached, Transition.run (step sampleSetting) relayedTwiceMoves
        (start sampleSetting sampleRelays) = some reached ∧
      (relayedEntries ⟨2⟩ reached.state).length = 2 ∧
      DeliversOutbox sampleSetting.codec reached.state := by
  have hTwice : (Transition.run (step sampleSetting) relayedTwiceMoves
      (start sampleSetting sampleRelays)).map
        (fun reached => (relayedEntries ⟨2⟩ reached.state).length) = some 2 := by
    decide +kernel
  obtain ⟨reached, hRun, hLength⟩ := Option.map_eq_some_iff.mp hTwice
  exact ⟨reached, hRun, hLength, relays_deliverOutbox hRun⟩

end DocInsight.Delivery
