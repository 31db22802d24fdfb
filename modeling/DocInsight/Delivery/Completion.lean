import DocInsight.Delivery.Acknowledgement
import Mathlib.Data.List.Induction

/-! A completed document stays completed exactly when no worker marks it late: after output
was committed that the worker has not looked at. -/
namespace DocInsight.Delivery

open DocInsight.Contracts DocInsight.Worker Interaction Table

/-- What is completed at some point of the moves is neither processing nor failed at any
later one. -/
def StaysCompleted (setting : Setting) (moves : List Move) (deployment : Deployment) : Prop :=
  ∀ first second middle finish, first ++ second <+: moves →
    Transition.run (step setting) first deployment = some middle →
    Transition.run (step setting) second middle = some finish →
    ∀ row ∈ middle.state.database.documents, completed row = true →
      ∀ later ∈ finish.state.database.documents, later.ownerKey = row.ownerKey →
        later.status ≠ .processing ∧ later.status ≠ .failed

/-- The call takes its effect, whatever it is answered. -/
def Choice.Commits (choice : Choice) : Prop := ∀ error, choice.failure ≠ some (error, false)

/-- Completed output of the document was committed since the agent's last lookup. -/
def CompletedSince (agent : Nat) (key : String × UUID) (history : List Logged) : Prop :=
  ∃ row, .committed row ∈ sinceLookup agent history ∧ row.ownerKey = key ∧ completed row = true

/-- A move that commits 'processing' or 'failed' does so before any completion that its
worker has not looked at. -/
def MarksInTime (deployment : Deployment) : Move → Prop
  | .advance agent choice => ∀ tenantId id status error next,
      deployment.programs agent = some (.call (.markStatus tenantId id status error) next) →
      status = .processing ∨ status = .failed → choice.Commits →
      ¬ CompletedSince agent (tenantId, id) deployment.state.history
  | _ => True

/-- Whatever was committed as completed is completed still. -/
def StillCompleted (state : DeliveryState) : Prop :=
  ∀ row, .committed row ∈ state.history → completed row = true →
    ∀ later ∈ state.database.documents, later.ownerKey = row.ownerKey → completed later = true

theorem sinceLookup_subset (agent : Nat) (history : List Logged) :
    sinceLookup agent history ⊆ history := by
  induction history with
  | nil => exact List.nil_subset _
  | cons logged history ih =>
      have hRest := List.cons_subset_cons logged ih
      cases logged with
      | looked other found =>
          rw [sinceLookup]
          split_ifs
          · exact List.nil_subset _
          · exact hRest
      | _ => exact hRest

section Effects
variable {setting : Setting} {agent : Nat} {state middle after : DeliveryState} {choice : Choice}
  {request : Call} {answer : Except Failure (Response request)}

theorem perform_of_commits (hCommits : choice.Commits)
    (h : perform setting agent state choice request = some (answer, after)) :
    ∃ own middle, effect setting agent state choice request = some (own, middle) ∧
      after = note agent request answer middle ∧
      (answer = own ∨ ∃ error, answer = .error error) := by
  unfold perform at h
  cases hEffect : effect setting agent state choice request with
  | none =>
      rw [hEffect] at h
      cases h
  | some effected =>
      obtain ⟨own, middle⟩ := effected
      rw [hEffect] at h
      cases hFailure : choice.failure with
      | none =>
          simp only [hFailure] at h
          cases h
          exact ⟨_, middle, rfl, rfl, Or.inl rfl⟩
      | some failure =>
          obtain ⟨error, taken⟩ := failure
          simp only [hFailure] at h
          split_ifs at h with hRaises hTaken
          · cases h
            exact ⟨_, middle, rfl, rfl, Or.inr ⟨error, rfl⟩⟩
          · rw [Bool.not_eq_true] at hTaken
            rw [hTaken] at hFailure
            exact absurd hFailure (hCommits error)

theorem perform_of_not_commits (hCommits : ¬ choice.Commits)
    (h : perform setting agent state choice request = some (answer, after)) :
    after = note agent request answer state ∧ ∃ error, answer = .error error := by
  simp only [Choice.Commits, not_forall, not_not] at hCommits
  obtain ⟨error, hFailure⟩ := hCommits
  unfold perform at h
  cases hEffect : effect setting agent state choice request with
  | none =>
      rw [hEffect] at h
      cases h
  | some effected =>
      rw [hEffect] at h
      simp only [hFailure, Bool.false_eq_true, ↓reduceIte] at h
      split_ifs at h
      cases h
      exact ⟨rfl, error, rfl⟩

/-- An answer changes no row and commits none. -/
theorem note_documents (agent : Nat) (request : Call) (answer : Except Failure (Response request))
    (state : DeliveryState) :
    (note agent request answer state).database.documents = state.database.documents ∧
      ∀ row, .committed row ∈ (note agent request answer state).history ↔
        .committed row ∈ state.history := by
  obtain ⟨attempt, history, hNote, hHistory⟩ := note_cases agent request answer state
  rw [hNote]
  refine ⟨rfl, fun row => ?_⟩
  show .committed row ∈ history ↔ _
  rcases hHistory with rfl | ⟨found, rfl⟩
  · exact Iff.rfl
  · simp

/-- Only status changes and upserts store rows. -/
theorem effect_documents {own : Except Failure (Response request)}
    (h : effect setting agent state choice request = some (own, middle))
    (hMark : ∀ tenantId id status error, request ≠ .markStatus tenantId id status error)
    (hUpsert : ∀ tenantId filename document, request ≠ .upsertDocument tenantId filename document) :
    middle.database.documents = state.database.documents ∧
      ∀ row, .committed row ∈ middle.history ↔ .committed row ∈ state.history := by
  cases request with
  | markStatus tenantId id status error => exact absurd rfl (hMark tenantId id status error)
  | upsertDocument tenantId filename document =>
      exact absurd rfl (hUpsert tenantId filename document)
  | stream command =>
      simp only [effect, Option.map_eq_some_iff] at h
      obtain ⟨⟨answer, after⟩, hEffect, hAfter⟩ := h
      cases hAfter
      obtain ⟨delivered, pending, deadLetters, history, rfl, -, hHistory⟩ :=
        streamEffect_cases hEffect
      refine ⟨rfl, fun row => ?_⟩
      rcases hHistory with rfl | ⟨fields, rfl⟩ | ⟨entry, rfl⟩
      · exact Iff.rfl
      · simp
      · simp
  | begin tenantId =>
      cases h
      exact ⟨rfl, fun row => by simp [DeliveryState.setTransaction, DeliveryState.abandon,
        DeliveryState.log, DeliveryState.endTransaction]⟩
  | rollback =>
      cases h
      exact ⟨rfl, fun row => by simp [DeliveryState.setTransaction, DeliveryState.abandon,
        DeliveryState.log, DeliveryState.endTransaction]⟩
  | publish event =>
      cases h
      exact ⟨rfl, fun row => by simp [DeliveryState.setTransaction, DeliveryState.addEntry,
        DeliveryState.log]⟩
  | _ =>
      cases h
      exact ⟨rfl, fun row => Iff.rfl⟩

theorem StillCompleted.congr (kept : StillCompleted state)
    (hSame : after.database.documents = state.database.documents ∧
      ∀ row, .committed row ∈ after.history ↔ .committed row ∈ state.history) :
    StillCompleted after := by
  intro row hRow hCompleted later hLater hKey
  rw [hSame.1] at hLater
  exact kept row ((hSame.2 row).mp hRow) hCompleted later hLater hKey

/-- A row is stored over a completed one only if it is completed. -/
theorem StillCompleted.store (kept : StillCompleted state) {database : Database}
    {row : DocumentRow} (stores : Stores state.database.documents database row)
    (hRow : ∀ old, .committed old ∈ state.history → completed old = true →
      row.ownerKey = old.ownerKey → completed row = true) :
    StillCompleted (state.store database (some row)) := by
  intro old hOld hCompleted later hLater hKey
  rw [DeliveryState.store_database] at hLater
  rcases List.mem_cons.mp hOld with hSame | hEarlier
  · cases hSame
    rw [stores.unique.eq_of_id hLater stores.stored (congrArg Prod.snd hKey)]
    exact hCompleted
  · rcases stores.others later hLater with rfl | hBefore
    · exact hRow old hEarlier hCompleted hKey
    · exact kept old hEarlier hCompleted later hBefore hKey

/-- A mark in time finds no completed row to undo. -/
theorem StillCompleted.markStatus {tenantId : String} {id : UUID} {status : DocumentStatus}
    {error : Option String} {own : Except Failure Unit} (kept : StillCompleted state)
    (recorded : Recorded setting.codec state)
    (guard : Guard setting agent state (.markStatus tenantId id status error))
    (hInTime : status = .processing ∨ status = .failed →
      ¬ CompletedSince agent (tenantId, id) state.history)
    (h : effect setting agent state choice (.markStatus tenantId id status error) =
      some (own, middle)) : StillCompleted middle := by
  simp only [effect] at h
  split at h
  · cases h
    exact kept
  · rename_i row hFound
    cases h
    obtain ⟨hRow, hKey⟩ := select_mem hFound
    apply kept.store (markStatus_stores recorded.unique hFound status error)
    intro old hOld hCompleted hSame
    have hStill : completed row = true := kept old hOld hCompleted row hRow hSame
    obtain ⟨hUploaded, entry, event, working, hEvent⟩ := guard
    by_cases hOpen : status = .processing ∨ status = .failed
    · -- the row is the one the worker has looked at, or was committed since
      obtain ⟨seen, hSeen, hSeenKey, hSeenOpen⟩ := working.looked
      rcases recorded.looked agent seen hSeen row hRow
        (hKey.trans (hEvent.symm.trans hSeenKey.symm)) with rfl | hSince
      · rw [hStill] at hSeenOpen
        cases hSeenOpen
      · exact absurd ⟨row, hSince, hKey, hStill⟩ (hInTime hOpen)
    · have hProcessed : status = .processed := by
        cases status with
        | uploaded => exact absurd rfl hUploaded
        | processing => exact absurd (Or.inl rfl) hOpen
        | processed => rfl
        | failed => exact absurd (Or.inr rfl) hOpen
      subst hProcessed
      simp only [completed, decide_eq_true_eq] at hStill ⊢
      exact ⟨rfl, hStill.2⟩

theorem StillCompleted.upsertDocument {tenantId filename : String} {document : Document}
    {own : Except Failure Unit} (kept : StillCompleted state)
    (unique : state.database.Unique) (hVersion : document.pipelineVersion = pipelineVersion)
    (h : effect setting agent state choice (.upsertDocument tenantId filename document) =
      some (own, middle)) : StillCompleted middle := by
  rcases upsertEffect_stores unique h with
    ⟨-, rfl⟩ | ⟨database, row, -, stores, hStatus, hRowVersion, -, rfl⟩
  · exact kept
  · apply kept.store stores
    intro old _ _ _
    rw [hVersion] at hRowVersion
    simp [completed, hStatus, hRowVersion]

theorem StillCompleted.perform (kept : StillCompleted state)
    (sound : Sound setting.codec state) (guard : Guard setting agent state request)
    (hInTime : ∀ tenantId id status error, request = .markStatus tenantId id status error →
      status = .processing ∨ status = .failed → choice.Commits →
      ¬ CompletedSince agent (tenantId, id) state.history)
    (h : perform setting agent state choice request = some (answer, after)) :
    StillCompleted after := by
  by_cases hCommits : choice.Commits
  · obtain ⟨own, middle, hEffect, rfl, -⟩ := perform_of_commits hCommits h
    refine StillCompleted.congr ?_ (note_documents agent request answer middle)
    cases request with
    | markStatus tenantId id status error =>
        exact kept.markStatus sound.toRecorded guard
          (fun hOpen => hInTime tenantId id status error rfl hOpen hCommits) hEffect
    | upsertDocument tenantId filename document =>
        exact kept.upsertDocument sound.unique guard.2 hEffect
    | _ => exact kept.congr (effect_documents hEffect (by intros; simp) (by intros; simp))
  · rw [(perform_of_not_commits hCommits h).1]
    exact kept.congr (note_documents agent request answer state)

theorem StillCompleted.occur {event : Event} (kept : StillCompleted state)
    (sound : Sound setting.codec state) (h : occur state event = some after) :
    StillCompleted after := by
  cases event with
  | register upload =>
      rcases register_cases h with rfl | ⟨hAbsent, hFresh, -, rfl⟩
      · exact kept
      · apply kept.store (register_stores sound.unique hAbsent hFresh rfl)
        intro old hOld _ hKey
        obtain ⟨living, hLiving, hSame⟩ := sound.living old hOld
        have hId : living.id = upload.documentId :=
          congrArg Prod.snd (hSame.trans hKey.symm)
        exact absurd hId (select_eq_none.mp hFresh living hLiving)
  | append fields =>
      cases h
      exact kept.congr ⟨rfl, fun _ => Iff.rfl⟩

theorem StillCompleted.crash (kept : StillCompleted state) (agent : Nat) :
    StillCompleted (crash agent state) :=
  kept.congr ⟨rfl, fun row => by simp [Delivery.crash, DeliveryState.setAttempt,
    DeliveryState.abandon, DeliveryState.log, DeliveryState.endTransaction,
    DeliveryState.setTransaction]⟩

end Effects

section Runs
variable {setting : Setting} {processes : Nat → Process} {deployment next : Deployment}
  {move : Move}

/-- What a step of a deployment is: a call of a process, a crash or an event. -/
theorem step_cases (h : step setting deployment move = some next) :
    (∃ agent choice request rest answer, move = .advance agent choice ∧
        deployment.programs agent = some (.call request rest) ∧
        perform setting agent deployment.state choice request = some (answer, next.state)) ∨
      (∃ agent, move = .crash agent ∧ next.state = crash agent deployment.state) ∨
      ∃ event, move = .event event ∧ occur deployment.state event = some next.state := by
  cases move with
  | advance agent choice =>
      simp only [step, Pool.step] at h
      split at h
      · rename_i request rest hProgram
        obtain ⟨⟨answer, state⟩, hPerform, rfl⟩ := Option.map_eq_some_iff.mp h
        exact Or.inl ⟨agent, choice, request, rest, answer, rfl, hProgram, hPerform⟩
      · cases h
  | crash agent =>
      cases h
      exact Or.inr (Or.inl ⟨agent, rfl, rfl⟩)
  | event event =>
      obtain ⟨state, hEvent, rfl⟩ := Option.map_eq_some_iff.mp h
      exact Or.inr (Or.inr ⟨event, rfl, hEvent⟩)

/-- Processes that meet their guards, whatever they leave. -/
abbrev Guarded (setting : Setting) (deployment : Deployment) : Prop :=
  (knowledge setting).PoolSafe (fun _ _ _ => True) deployment

theorem Guarded.step (guarded : Guarded setting deployment)
    (h : step setting deployment move = some next) : Guarded setting next :=
  Discipline.PoolSafe.step (fun _ _ _ _ _ _ => trivial) guarded h

theorem Guarded.grows (guarded : Guarded setting deployment)
    (h : Delivery.step setting deployment move = some next) : Grows deployment.state next.state := by
  rcases step_cases h with ⟨agent, choice, request, rest, answer, -, hProgram, hPerform⟩ |
    ⟨agent, -, hCrash⟩ | ⟨event, -, hEvent⟩
  · have guard := Discipline.PoolSafe.guard guarded hProgram
    exact perform_grows guarded.1.unique (Guard.upsertsKnown guard) hPerform
  · rw [hCrash]
    exact crash_grows agent deployment.state
  · exact occur_grows hEvent

theorem Guarded.run {moves : List Move} {reached : Deployment}
    (guarded : Guarded setting deployment)
    (h : Transition.run (Delivery.step setting) moves deployment = some reached) :
    Guarded setting reached ∧ Grows deployment.state reached.state := by
  refine @Transition.run_invariant _ _ (Delivery.step setting)
    (fun point => Guarded setting point ∧ Grows deployment.state point.state) ?_ _ _ _ ?_ h
  · rintro middle move next ⟨hGuarded, hGrows⟩ hStep
    exact ⟨hGuarded.step hStep, hGrows.trans (hGuarded.grows hStep)⟩
  · exact ⟨guarded, Grows.refl _⟩

theorem StillCompleted.step (kept : StillCompleted deployment.state)
    (guarded : Guarded setting deployment) (hInTime : MarksInTime deployment move)
    (h : step setting deployment move = some next) : StillCompleted next.state := by
  rcases step_cases h with ⟨agent, choice, request, rest, answer, rfl, hProgram, hPerform⟩ |
    ⟨agent, -, hCrash⟩ | ⟨event, -, hEvent⟩
  · apply kept.perform guarded.1 (Discipline.PoolSafe.guard guarded hProgram) ?_ hPerform
    rintro tenantId id status error rfl
    exact hInTime tenantId id status error rest hProgram
  · rw [hCrash]
    exact kept.crash agent
  · exact kept.occur guarded.1 hEvent

/-- What a step commits is stored when it is done. -/
theorem committed_step {row : DocumentRow} (guarded : Guarded setting deployment)
    (h : step setting deployment move = some next)
    (hRow : .committed row ∈ next.state.history) :
    .committed row ∈ deployment.state.history ∨ row ∈ next.state.database.documents := by
  rcases step_cases h with ⟨agent, choice, request, rest, answer, rfl, hProgram, hPerform⟩ |
    ⟨agent, -, hCrash⟩ | ⟨event, -, hEvent⟩
  · by_cases hCommits : choice.Commits
    · obtain ⟨own, middle, hEffect, hNext, -⟩ := perform_of_commits hCommits hPerform
      obtain ⟨hDocuments, hCommitted⟩ := note_documents agent request answer middle
      rw [hNext, hCommitted] at hRow
      rw [hNext, hDocuments]
      have hStored {database : Database} {stored : DocumentRow}
          (stores : Stores deployment.state.database.documents database stored)
          (hRow : .committed row ∈ (deployment.state.store database (some stored)).history) :
          .committed row ∈ deployment.state.history ∨ row ∈ database.documents := by
        rcases List.mem_cons.mp hRow with hSame | hOld
        · cases hSame
          exact Or.inr stores.stored
        · exact Or.inl hOld
      cases request with
      | markStatus tenantId id status error =>
          simp only [effect] at hEffect
          split at hEffect
          · cases hEffect
            exact Or.inl hRow
          · rename_i found hFound
            cases hEffect
            exact hStored (markStatus_stores guarded.1.unique hFound status error) hRow
      | upsertDocument tenantId filename document =>
          rcases upsertEffect_stores guarded.1.unique hEffect with
            ⟨-, rfl⟩ | ⟨database, stored, -, stores, -, -, -, rfl⟩
          · exact Or.inl hRow
          · rw [DeliveryState.store_database]
            exact hStored stores hRow
      | _ =>
          exact Or.inl (((effect_documents hEffect (by intros; simp) (by intros; simp)).2
            row).mp hRow)
    · rw [(perform_of_not_commits hCommits hPerform).1,
        (note_documents agent request answer deployment.state).2] at hRow
      exact Or.inl hRow
  · rw [hCrash] at hRow
    rcases List.mem_cons.mp hRow with hSame | hOld
    · cases hSame
    · exact Or.inl hOld
  · cases event with
    | register upload =>
        rcases register_cases hEvent with hSame | ⟨-, -, -, hSame⟩
        · rw [hSame] at hRow
          exact Or.inl hRow
        · rw [hSame] at hRow ⊢
          rcases List.mem_cons.mp hRow with hNew | hOld
          · cases hNew
            exact Or.inr (List.mem_append_right _ (List.mem_singleton_self _))
          · exact Or.inl hOld
    | append fields =>
        simp only [occur, Option.some.injEq] at hEvent
        rw [← hEvent] at hRow
        exact Or.inl hRow

/-- Whatever was committed in a run was stored at some point of it. -/
theorem committed_run {moves : List Move} {reached : Deployment} {row : DocumentRow}
    (guarded : Guarded setting deployment)
    (hNone : .committed row ∉ deployment.state.history)
    (hRun : Transition.run (step setting) moves deployment = some reached)
    (hRow : .committed row ∈ reached.state.history) :
    ∃ first second middle, moves = first ++ second ∧
      Transition.run (step setting) first deployment = some middle ∧
      Transition.run (step setting) second middle = some reached ∧
      row ∈ middle.state.database.documents := by
  induction moves using List.reverseRecOn generalizing reached with
  | nil =>
      cases hRun
      exact absurd hRow hNone
  | append_singleton moves move ih =>
      obtain ⟨middle, hInit, hLast⟩ := (Transition.run_append_eq_some (step setting)).mp hRun
      have hStep : step setting middle move = some reached := by
        obtain ⟨last, hStep, hSame⟩ := (Transition.run_cons_eq_some (step setting)).mp hLast
        cases hSame
        exact hStep
      rcases committed_step (guarded.run hInit).1 hStep hRow with hOld | hStored
      · obtain ⟨first, second, point, rfl, hFirst, hSecond, hPoint⟩ := ih hInit hOld
        refine ⟨first, second ++ [move], point, List.append_assoc .., hFirst, ?_, hPoint⟩
        exact (Transition.run_append_eq_some (step setting)).mpr ⟨middle, hSecond, hLast⟩
      · exact ⟨moves ++ [move], [], reached, (List.append_nil _).symm, hRun, rfl, hStored⟩

theorem start_guarded (setting : Setting) (processes : Nat → Process) :
    Guarded setting (start setting processes) := by
  have hNil : Transition.run (step setting) [] (start setting processes) =
      some (start setting processes) := rfl
  exact run_safe hNil

/-- A run whose marks are all in time keeps what it has completed. -/
theorem stillCompleted_run {moves : List Move} {reached : Deployment}
    (hInTime : Transition.Every (step setting) (fun point move _ => MarksInTime point move) moves
      (start setting processes))
    (hRun : Transition.run (step setting) moves (start setting processes) = some reached) :
    StillCompleted reached.state := by
  have hBoth : Guarded setting reached ∧ StillCompleted reached.state := by
    refine @Transition.run_invariant_of_every _ _ (step setting)
      (fun point move _ => MarksInTime point move)
      (fun point => Guarded setting point ∧ StillCompleted point.state) ?_ _ _ _ ?_ hInTime hRun
    · rintro point move next ⟨guarded, kept⟩ hMove hStep
      exact ⟨guarded.step hStep, kept.step guarded hMove hStep⟩
    · refine ⟨start_guarded setting processes, ?_⟩
      intro row hRow
      cases hRow
  exact hBoth.2

/-- A mark that is not in time undoes a completion. -/
theorem markStatus_undoes {agent : Nat} {choice : Choice} {tenantId : String} {id : UUID}
    {status : DocumentStatus} {error : Option String} {answer : Except Failure Unit}
    {state after : DeliveryState} (recorded : Recorded setting.codec state)
    (hOpen : status = .processing ∨ status = .failed) (hCommits : choice.Commits)
    {row : DocumentRow} (hRow : .committed row ∈ state.history)
    (hKey : row.ownerKey = (tenantId, id))
    (h : perform setting agent state choice (.markStatus tenantId id status error) =
      some (answer, after)) :
    ∃ later ∈ after.database.documents, later.ownerKey = (tenantId, id) ∧
      (later.status = .processing ∨ later.status = .failed) := by
  obtain ⟨own, middle, hEffect, rfl, -⟩ := perform_of_commits hCommits h
  rw [(note_documents agent (.markStatus tenantId id status error) answer middle).1]
  obtain ⟨living, hLiving, hLivingKey⟩ := recorded.living row hRow
  simp only [effect] at hEffect
  split at hEffect
  · rename_i hAbsent
    exact absurd (hLivingKey.trans hKey) (select_eq_none.mp hAbsent living hLiving)
  · rename_i found hFound
    cases hEffect
    exact ⟨_, (markStatus_stores recorded.unique hFound status error).stored,
      (select_mem hFound).2, hOpen⟩

end Runs

/-- A run keeps what it has completed if and only if every mark in it is in time. -/
theorem staysCompleted_iff (setting : Setting) (processes : Nat → Process) (moves : List Move) :
    StaysCompleted setting moves (start setting processes) ↔
      Transition.Every (step setting) (fun point move _ => MarksInTime point move) moves
        (start setting processes) := by
  have hStart := start_guarded setting processes
  constructor
  · intro hStays
    rw [Transition.every_iff]
    intro before move rest point next hMoves hBefore hStep
    cases move with
    | advance agent choice =>
        intro tenantId id status error program hProgram hOpen hCommits hSince
        obtain ⟨row, hRow, hKey, hCompleted⟩ := hSince
        obtain ⟨guarded, -⟩ := hStart.run hBefore
        have hCommitted : .committed row ∈ point.state.history := sinceLookup_subset agent _ hRow
        obtain ⟨first, second, middle, rfl, hFirst, hSecond, hStored⟩ :=
          committed_run hStart (by simp [start]) hBefore hCommitted
        have hFinish : Transition.run (step setting) (second ++ [.advance agent choice]) middle =
            some next := by
          refine (Transition.run_append_eq_some (step setting)).mpr ⟨point, hSecond, ?_⟩
          exact (Transition.run_cons_eq_some (step setting)).mpr ⟨next, hStep, rfl⟩
        have hPrefix : first ++ (second ++ [.advance agent choice]) <+: moves := by
          refine ⟨rest, ?_⟩
          rw [hMoves]
          simp
        rcases step_cases hStep with ⟨_, _, request, continuation, answer, hSame, hRequest,
          hPerform⟩ | ⟨_, hSame, -⟩ | ⟨_, hSame, -⟩
        · cases hSame
          cases hProgram.symm.trans hRequest
          obtain ⟨later, hLater, hLaterKey, hUndone⟩ :=
            markStatus_undoes guarded.1.toRecorded hOpen hCommits hCommitted hKey hPerform
          obtain ⟨hProcessing, hFailed⟩ := hStays first _ middle next hPrefix hFirst hFinish row
            hStored hCompleted later hLater (hLaterKey.trans hKey.symm)
          rcases hUndone with h | h
          · exact hProcessing h
          · exact hFailed h
        · cases hSame
        · cases hSame
    | crash agent => trivial
    | event event => trivial
  · intro hInTime first second middle finish hPrefix hFirst hSecond row hRow hCompleted later
      hLater hKey
    have hFinish : Transition.run (step setting) (first ++ second) (start setting processes) =
        some finish := (Transition.run_append_eq_some (step setting)).mpr ⟨middle, hFirst, hSecond⟩
    obtain ⟨rest, rfl⟩ := hPrefix
    have hKept : StillCompleted finish.state :=
      stillCompleted_run ((Transition.every_append (step setting)).mp hInTime).1 hFinish
    obtain ⟨guarded, -⟩ := hStart.run hFirst
    have hCommitted := (guarded.run hSecond).2.history.subset (guarded.1.committed row hRow)
    have hStill := hKept row hCommitted hCompleted later hLater hKey
    simp only [completed, decide_eq_true_eq] at hStill
    rw [hStill.1]
    exact ⟨by decide, by decide⟩

/-- The first worker marks the document that the second has completed meanwhile. -/
def lateMarkMoves : List Move := lookupMoves ++ takeoverMoves ++ [.advance 1 calm]

theorem lateMark_undoesCompletion :
    ¬ StaysCompleted sampleSetting lateMarkMoves (start sampleSetting sampleProcesses) := by
  have hTakeover : (Transition.run (step sampleSetting) (lookupMoves ++ takeoverMoves)
      (start sampleSetting sampleProcesses)).map (fun reached =>
        reached.state.database.documents.map fun row => (row.ownerKey, completed row)) =
      some [(("acme", ⟨1⟩), true)] := by decide +kernel
  have hLate : (Transition.run (step sampleSetting) lateMarkMoves
      (start sampleSetting sampleProcesses)).map (fun reached =>
        reached.state.database.documents.map fun row => (row.ownerKey, row.status)) =
      some [(("acme", ⟨1⟩), .processing)] := by decide +kernel
  intro hStays
  obtain ⟨middle, hMiddle, hCompleted⟩ := Option.map_eq_some_iff.mp hTakeover
  obtain ⟨finish, hFinish, hProcessing⟩ := Option.map_eq_some_iff.mp hLate
  obtain ⟨point, hPoint, hLast⟩ := (Transition.run_append_eq_some (step sampleSetting)).mp hFinish
  cases hMiddle.symm.trans hPoint
  obtain ⟨row, hRows, hRow⟩ := List.map_eq_singleton_iff.mp hCompleted
  obtain ⟨later, hLaters, hLater⟩ := List.map_eq_singleton_iff.mp hProcessing
  obtain ⟨hRowKey, hRowCompleted⟩ := Prod.mk.inj hRow
  obtain ⟨hLaterKey, hLaterStatus⟩ := Prod.mk.inj hLater
  refine (hStays _ _ middle finish List.prefix_rfl hMiddle hLast row ?_ hRowCompleted later ?_ ?_).1
    hLaterStatus
  · rw [hRows]
    exact List.mem_singleton_self _
  · rw [hLaters]
    exact List.mem_singleton_self _
  · exact hLaterKey.trans hRowKey.symm

end DocInsight.Delivery
