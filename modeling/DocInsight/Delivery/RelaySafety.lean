import DocInsight.Delivery.WorkerSafety

/-! Every relay meets the guard of each of its calls: it publishes the rows it holds, and
commits once all of them are marked. -/
namespace DocInsight.Delivery

open DocInsight.Contracts DocInsight.Worker DocInsight.Ingest Interaction Discipline Table

/-- A relay is in a transaction of a tenant, holds these rows and has still to publish
them; all it has published is marked. -/
structure Relaying (agent : Nat) (tenantId : String) (rows : List OutboxRow)
    (state : DeliveryState) : Prop where
  tenant : (state.transactions agent).tenantId = tenantId
  marked : (state.transactions agent).published ⊆ (state.transactions agent).marked
  held : ∀ row ∈ rows, (agent, row.id) ∈ state.locks ∧ row.tenantId = tenantId ∧
    ∃ later ∈ state.database.outbox, outboxEvent later = outboxEvent row
  fresh : ∀ row ∈ rows, row.id ∉ (state.transactions agent).published
  distinct : Keyed OutboxRow.id rows

section Relay
variable {setting : Setting} {agent : Nat} {tenantId : String} {rows : List OutboxRow}
  {state now : DeliveryState}

theorem Relaying.rely (h : Relaying agent tenantId rows state)
    (hRely : (knowledge setting).Rely agent state now) : Relaying agent tenantId rows now := by
  obtain ⟨hGrows, hSpares⟩ := hRely
  refine ⟨?_, ?_, ?_, ?_, h.distinct⟩
  · rw [hSpares.transaction]
    exact h.tenant
  · rw [hSpares.transaction]
    exact h.marked
  · intro row hRow
    obtain ⟨hLock, hTenant, later, hLater, hSame⟩ := h.held row hRow
    obtain ⟨last, hLast, hSame'⟩ := hGrows.outboxRow hLater
    exact ⟨(hSpares.locks row.id).mpr hLock, hTenant, last, hLast, hSame'.trans hSame⟩
  · rw [hSpares.transaction]
    exact h.fresh

/-- The next row, once its event is on the stream, is marked. -/
theorem safe_publishRow {row : OutboxRow} {rest : List OutboxRow} {traceparent : Option String}
    (relaying : Relaying agent tenantId (row :: rest) state)
    {program : Task Unit} {post : Except Failure Unit → DeliveryState → Prop}
    (hError : ∀ error now, post (.error error) now)
    (hRest : ∀ now, Relaying agent tenantId rest now → (knowledge setting).Safe agent program post now) :
    (knowledge setting).Safe agent (do
      relayBackend.publish { row.payload with traceparent }
      relayBackend.setPublished tenantId row.id
      program) post state := by
  obtain ⟨hNew, hDistinct⟩ := List.nodup_cons.mp relaying.distinct
  apply Safe.bind
  apply safe_call (.publish { row.payload with traceparent })
  · intro now hRely _
    have hNow := relaying.rely hRely
    obtain ⟨hLock, hTenant, later, hLater, hSame⟩ := hNow.held row (List.mem_cons_self ..)
    obtain ⟨hId, hRest⟩ := Prod.mk.inj hSame
    obtain ⟨hLaterTenant, hPayload⟩ := Prod.mk.inj hRest
    refine ⟨later, hLater, ?_, by rw [hPayload], hId ▸ hLock, ?_⟩
    · rw [hLaterTenant, hTenant, hNow.tenant]
    · rw [hId]
      exact hNow.fresh row (List.mem_cons_self ..)
  · intro now middle choice error _ _ _
    exact hError error _
  · intro now middle choice answer hRely sound hEffect
    have hNow := relaying.rely hRely
    obtain ⟨-, -, later, hLater, hSame⟩ := hNow.held row (List.mem_cons_self ..)
    have hEventId : row.payload.eventId = row.id := by
      obtain ⟨hId, hEvent⟩ := Prod.mk.inj hSame
      rw [← hId, ← (Prod.mk.inj hEvent).2]
      exact sound.events_id later hLater
    cases hEffect
    apply Safe.bind
    apply safe_call (.setPublished tenantId row.id)
    · intro next hNext _
      show row.id ∈ (next.transactions agent).published
      rw [hNext.2.transaction, ← hEventId]
      simp [note, DeliveryState.setTransaction]
    · intro next middle choice error _ _ _
      exact hError error _
    · intro next middle choice answer hNext _ hEffect
      obtain ⟨hGrows, hSpares⟩ := hNext
      have hTransaction : next.transactions agent =
          { now.transactions agent with
            published := (now.transactions agent).published ++ [row.payload.eventId] } := by
        rw [hSpares.transaction]
        simp [note, DeliveryState.setTransaction]
      obtain ⟨last, hLast, hSame'⟩ := hGrows.outboxRow hLater
      have hFound : (next.database.outbox.any fun other =>
          other.tenantId = tenantId ∧ other.id = row.id) = true := by
        have hRow := hSame'.trans hSame
        refine List.any_eq_true.mpr ⟨last, hLast, decide_eq_true ⟨?_, congrArg Prod.fst hRow⟩⟩
        exact (congrArg (Prod.fst ∘ Prod.snd) hRow).trans
          (hNow.held row (List.mem_cons_self ..)).2.1
      cases hEffect
      apply hRest
      refine ⟨?_, ?_, ?_, ?_, hDistinct⟩
      · simp only [note, DeliveryState.setTransaction, if_pos, hTransaction]
        exact hNow.tenant
      · simp only [note, DeliveryState.setTransaction, if_pos, hTransaction, hFound]
        rw [hEventId]
        intro id hId
        rcases List.mem_append.mp hId with hOld | hLastId
        · exact List.mem_append_left _ (hNow.marked hOld)
        · exact List.mem_append_right _ hLastId
      · intro other hOther
        obtain ⟨hLock, hTenant, stored, hStored, hStoredSame⟩ :=
          hNow.held other (List.mem_cons_of_mem _ hOther)
        obtain ⟨final, hFinal, hFinalSame⟩ := hGrows.outboxRow hStored
        exact ⟨(hSpares.locks other.id).mpr hLock, hTenant, final, hFinal,
          hFinalSame.trans hStoredSame⟩
      · intro other hOther hPublished
        simp only [note, DeliveryState.setTransaction, if_pos, hTransaction] at hPublished
        rcases List.mem_append.mp hPublished with hOld | hSameId
        · exact hNow.fresh other (List.mem_cons_of_mem _ hOther) hOld
        · rw [List.mem_singleton, hEventId] at hSameId
          exact hNew (hSameId ▸ List.mem_map_of_mem hOther)

theorem publishRows_safe (relaying : Relaying agent tenantId rows state) :
    (knowledge setting).Safe agent (publishRows relayBackend tenantId rows)
      (fun outcome now => outcome = .ok () → Relaying agent tenantId [] now) state := by
  induction rows generalizing state with
  | nil => exact fun _ => relaying
  | cons row rest ih =>
      apply Safe.bind
      apply safe_call (.outside .traceparent)
      · intros
        trivial
      · intro now middle choice error _ _ _ h
        cases h
      · intro now middle choice answer hRely sound hEffect
        have hNow := relaying.rely hRely
        cases hEffect
        apply safe_publishRow hNow
        · intro error later h
          cases h
        · intro later hLater
          exact ih hLater

/-- A batch is committed once all of it is marked. -/
theorem relayOnce_safe (tenantId : String) (batch : Nat) :
    (knowledge setting).Safe agent (Ingest.runOnce relayBackend tenantId batch)
      (fun _ _ => True) state := by
  unfold Ingest.runOnce
  split_ifs
  · trivial
  · apply Safe.bind
    apply safe_call (.begin tenantId)
    · intros
      trivial
    · intros
      trivial
    · intro now middle choice answer hRely sound hEffect
      cases hEffect
      have hBegun : Relaying agent tenantId []
          ((now.abandon agent).setTransaction agent { tenantId }) := by
        refine ⟨?_, ?_, ?_, ?_, List.nodup_nil⟩
        · simp [DeliveryState.setTransaction]
        · simp [DeliveryState.setTransaction]
        · simp
        · simp
      have hBody : (knowledge setting).Safe agent (do
            let rows ← relayBackend.selectPending tenantId batch
            publishRows relayBackend tenantId rows
            pure rows.length)
          (fun outcome later => ∀ count, outcome = .ok count → Relaying agent tenantId [] later)
          ((now.abandon agent).setTransaction agent { tenantId }) := by
        apply Safe.bind
        apply safe_call (.selectPending tenantId batch)
        · intros
          trivial
        · intro later middle choice error _ _ _ count h
          cases h
        · intro later middle choice answer hLater soundLater hEffect
          have hRelaying := hBegun.rely hLater
          cases hEffect
          have hRows : Relaying agent tenantId (later.pendingRows agent tenantId batch)
              { later with
                locks := later.locks ++
                  (later.pendingRows agent tenantId batch).map fun row => (agent, row.id) } := by
            have hNone : (later.transactions agent).published = [] := by
              rw [hLater.2.transaction]
              simp [DeliveryState.setTransaction]
            refine ⟨hRelaying.tenant, hRelaying.marked, ?_, ?_, ?_⟩
            · intro row hRow
              obtain ⟨hMem, hTenant, -, -⟩ := mem_pendingRows hRow
              exact ⟨List.mem_append_right _ (List.mem_map.mpr ⟨row, hRow, rfl⟩), hTenant, row,
                hMem, rfl⟩
            · intro row _
              rw [hNone]
              exact List.not_mem_nil
            · exact (((List.perm_insertionSort _ _).map _).nodup_iff.mpr
                (soundLater.outboxIds.sublist (List.filter_sublist.map _))).sublist
                  ((List.take_sublist _ _).map _)
          apply Safe.bind
          apply (publishRows_safe hRows).mono
          rintro (error | done) last hLast
          · intro count h
            cases h
          · intro count _
            exact hLast rfl
      apply Safe.andThen
      apply hBody.mono
      rintro (error | count) later hLater
      · apply Safe.andThen
        exact (safe_free .rollback fun _ => trivial).mono fun _ _ _ => trivial
      · apply Safe.andThen
        apply safe_call .commit
        · intro next hNext _
          exact ((hLater count rfl).rely hNext).marked
        · intro next middle choice error _ _ _
          apply Safe.andThen
          exact (safe_free .rollback fun _ => trivial).mono fun _ _ _ => trivial
        · intro next middle choice answer _ _ hEffect
          cases hEffect
          trivial

theorem runTenants_safe (batch : Nat) (tenants : List String) :
    (knowledge setting).Safe agent (runTenants relayBackend batch tenants) (fun _ _ => True)
      state := by
  induction tenants generalizing state with
  | nil => trivial
  | cons tenant rest ih =>
      apply Safe.bind
      apply (relayOnce_safe tenant batch).mono
      rintro (error | count) later -
      · trivial
      · exact ih

/-- A relay meets the guard of every call it makes, for any number of turns. -/
theorem relay_safe (tenants : List String) (batch turns : Nat) :
    (knowledge setting).Safe agent (Ingest.run relayBackend tenants batch turns)
      (fun _ _ => True) state := by
  induction turns generalizing state with
  | zero => trivial
  | succ turns ih =>
      apply Safe.bind
      apply (safe_free (.outside .stopping) fun _ => trivial).mono
      rintro (error | stopping) now -
      · trivial
      · simp only
        split_ifs
        · trivial
        · apply Safe.bind
          apply (runTenants_safe batch tenants).mono
          rintro (error | done) later -
          · trivial
          · apply Safe.bind
            apply (safe_free (.outside .wait) fun _ => trivial).mono
            rintro (error | waited) last -
            · trivial
            · exact ih

end Relay

section Deployment
variable (setting : Setting)

theorem Process.task_safe (process : Process) (agent : Nat) (state : DeliveryState) :
    (knowledge setting).Safe agent (process.task setting) (fun _ _ => True) state := by
  cases process with
  | worker settings turns memory => exact worker_safe settings memory turns
  | relay tenants batch turns => exact relay_safe tenants batch turns

/-- Every deployment that is reached is sound, and every process meets its guards. -/
theorem run_safe {setting : Setting} {processes : Nat → Process} {moves : List Move}
    {reached : Deployment}
    (hRun : Transition.run (step setting) moves (start setting processes) = some reached) :
    (knowledge setting).PoolSafe (fun _ _ _ => True) reached := by
  have hStart : (knowledge setting).PoolSafe (fun _ _ _ => True) (start setting processes) := by
    refine ⟨sound_empty setting.codec, ?_⟩
    intro agent program hProgram
    cases hProgram
    exact (processes agent).task_safe setting agent _
  exact hStart.run (fun _ _ _ _ _ _ => trivial) hRun

theorem run_sound {setting : Setting} {processes : Nat → Process} {moves : List Move}
    {reached : Deployment}
    (hRun : Transition.run (step setting) moves (start setting processes) = some reached) :
    Sound setting.codec reached.state :=
  (run_safe hRun).1

end Deployment

end DocInsight.Delivery
