import DocInsight.Delivery.Deliveries
import DocInsight.Delivery.ConsumerSurvival
import DocInsight.Worker.Calls

/-! Processing is invoked for an entry at most as often as it may be delivered: every
handling is for a delivery of its own, and finds a count of at least that delivery's. -/
namespace DocInsight.Delivery

open DocInsight.Contracts DocInsight.Worker DocInsight.Ingest Interaction Interaction.Discipline

/-- The calls that neither begin a handling nor need a delivery. -/
def Free : Call → Prop
  | .stream (.pending _) | .getDocument _ _ | .markStatus _ _ .processing _ => False
  | _ => True

/-- An agent still has a delivery of each of these entries. -/
def HasDeliveries (agent : Nat) (ids : List Nat) (now : DeliveryState × Account) : Prop :=
  ∀ id ∈ ids, ∃ ticket, now.2.Held agent ticket ∧ ticket.entry = id

section Calls
variable {setting : Setting} {maximum agent : Nat} {now later : DeliveryState × Account}
  {ids : List Nat} {choice : Choice}

theorem HasDeliveries.retains (h : HasDeliveries agent ids now) (retains : Retains agent now later) :
    HasDeliveries agent ids later := by
  intro id hId
  obtain ⟨ticket, held, hEntry⟩ := h id hId
  exact ⟨ticket, retains.held ticket held, hEntry⟩

theorem HasDeliveries.subset {others : List Nat} (h : HasDeliveries agent ids now)
    (hSubset : others ⊆ ids) : HasDeliveries agent others now :=
  fun id hId => h id (hSubset hId)

/-- An agent's own calls leave it its deliveries, but for its lookups. -/
theorem HasDeliveries.own {request : Call} {answer : Except Failure (Response request)}
    {after : DeliveryState} (h : HasDeliveries agent ids now) (accounted : Accounted now)
    (hFree : ∀ tenantId id, request ≠ .getDocument tenantId id)
    (hPerform : perform setting agent now.1 choice request = some (answer, after)) :
    HasDeliveries agent ids (after, see agent after request answer now.2) := by
  intro id hId
  obtain ⟨ticket, held, hEntry⟩ := h id hId
  refine ⟨ticket, ?_, hEntry⟩
  rcases see_cases accounted.toNumbered hPerform with ⟨messages, hDelivers, hSee⟩ |
    ⟨_, found, _, -, hSee⟩ | ⟨tenantId, document, _, _, hLookup, -⟩ | hSee
  · rw [hSee]
    exact accounted.held_of_issue hDelivers agent held
  · rw [hSee]
    exact held
  · exact absurd hLookup (hFree tenantId document)
  · rw [hSee]
    exact held

/-- One call, made with its guard. -/
theorem ration_call {request : Call}
    {post : Except Failure (Response request) → DeliveryState × Account → Prop}
    (hGuard : ∀ later, Retains agent now later → Accounted later →
      Entitled maximum agent later request)
    (hPost : ∀ later choice answer after, Retains agent now later → Accounted later →
      perform setting agent later.1 choice request = some (answer, after) →
      post answer (after, see agent after request answer later.2)) :
    (rationed setting maximum).Safe agent (call request) post now := by
  apply Safe.perform
  intro later hRetains accounted
  refine ⟨hGuard later hRetains accounted, fun choice answer after h _ => ?_⟩
  obtain ⟨hPerform, hAccount⟩ := Environment.observed_cases h
  have hPosted := hPost later choice answer after.1 hRetains accounted hPerform
  rw [← hAccount] at hPosted
  exact hPosted

theorem entitled_of_free {request : Call} (hFree : Free request) :
    Entitled maximum agent now request := by
  unfold Entitled
  split
  · exact hFree.elim
  · exact hFree.elim
  · trivial

theorem ne_getDocument_of_free {request : Call} (hFree : Free request) (tenantId : String)
    (id : UUID) : request ≠ .getDocument tenantId id := by
  rintro rfl
  exact hFree

/-- What needs no delivery leaves the agent those it has. -/
theorem ration_free {Result : Type} {program : Task Result} (hFree : program.Makes Free)
    (h : HasDeliveries agent ids now) :
    (rationed setting maximum).Safe agent program
      (fun _ later => HasDeliveries agent ids later) now := by
  apply Safe.of_makes (fun _ _ _ _ => entitled_of_free) (fun _ _ hRetains h => h.retains hRetains)
    _ h hFree
  intro later request choice answer after accounted hFree hPerform h
  obtain ⟨hOwn, hAccount⟩ := Environment.observed_cases hPerform
  have hAfter := h.own accounted (ne_getDocument_of_free hFree) hOwn
  rw [← hAccount] at hAfter
  exact hAfter

end Calls

section Programs
variable {setting : Setting}

/-- Nothing but the marks of processing needs a delivery of what a settlement does. -/
theorem settles_free (setting : Setting) : (backend setting).Settles Free where
  outside _ := Program.Makes.perform trivial
  addDeadLetter _ := Program.Makes.perform trivial
  acknowledge _ := Program.Makes.perform trivial
  markStatus _ _ status _ hStatus := by
    apply Program.Makes.perform
    cases status with
    | processing => exact absurd rfl hStatus
    | uploaded | processed | failed => trivial
  upsertDocument _ _ _ := Program.Makes.perform trivial

/-- What processing does once the document is marked. -/
def processMarked (backend : Backend Call Response) (event : WorkerEvent)
    (document : StoredDocument) : Task Unit := do
  backend.outside .makeDirectory
  Program.tryFinally
    (do let data ← download backend event
        index backend "original" data event.tenantId (some document.filename))
    (backend.outside .removeDirectory)
  backend.markStatus event.tenantId event.documentId .processed none

theorem process_eq (backend : Backend Call Response) (event : WorkerEvent)
    (document : StoredDocument) :
    process backend event document =
      (backend.markStatus event.tenantId event.documentId .processing none).bind fun _ =>
        processMarked backend event document :=
  rfl

theorem makes_processMarked (event : WorkerEvent) (document : StoredDocument) :
    (processMarked (backend setting) event document).Makes Free := by
  apply (Program.Makes.perform trivial).bind
  intro _
  apply ((settles_free setting).indexed event document).bind
  exact fun _ => Program.Makes.perform trivial

end Programs

section Worker
variable {setting : Setting} {maximum agent : Nat} {now : DeliveryState × Account}
  {rest : List Nat} {message : StreamMessage}

/-- A worker is at a delivery of an entry: its count is found, and maybe its document is
looked up. -/
structure AtDelivery (agent : Nat) (entry found : Nat) (phase : Ticket → Nat → Phase)
    (now : DeliveryState × Account) : Prop where
  phase : ∃ ticket, now.2.phase agent = phase ticket found ∧ ticket.entry = entry
  attempt : (now.1.attempts agent).entry = some entry

theorem AtDelivery.retains {entry found : Nat} {phase : Ticket → Nat → Phase}
    {later : DeliveryState × Account} (h : AtDelivery agent entry found phase now)
    (retains : Retains agent now later) : AtDelivery agent entry found phase later where
  phase := retains.phase ▸ h.phase
  attempt := retains.attempt ▸ h.attempt

/-- A count is found by a worker that has a delivery of the entry. -/
theorem ration_pending (h : HasDeliveries agent (message.id :: rest) now)
    {post : Except Failure Nat → DeliveryState × Account → Prop}
    (hPost : ∀ answer later, HasDeliveries agent rest later →
      (∀ found, answer = .ok found → found ≠ 0 →
        AtDelivery agent message.id found .handling later) → post answer later) :
    (rationed setting maximum).Safe agent ((backend setting).stream (.pending message.id)) post
      now := by
  apply ration_call
  · exact fun _ _ _ => trivial
  intro later choice answer after hRetains accounted hPerform
  have hLater := h.retains hRetains
  have hOwn := hLater.own accounted (fun _ _ hCall => by cases hCall) hPerform
  refine hPost answer _ (hOwn.subset (List.subset_cons_self _ _)) ?_
  rintro found rfl hFound
  obtain ⟨ticket, held, hEntry⟩ := hLater message.id (List.mem_cons_self ..)
  obtain ⟨middle, rfl, ⟨-, error, hError, -⟩ | ⟨own, hEffect, rfl | ⟨error, hError, -⟩⟩⟩ :=
    perform_cases hPerform
  · cases hError
  · simp only [effect, streamEffect, Option.map_some, Option.some.injEq, Prod.mk.injEq,
      Except.ok.injEq] at hEffect
    obtain ⟨hCount, rfl⟩ := hEffect
    have hNumber : ticket.number ≤ found := by
      cases hPending : Table.select PendingEntry.id message.id later.1.pending with
      | none =>
          rw [hPending] at hCount
          exact absurd hCount.symm hFound
      | some entry =>
          rw [hPending, Option.map_some, Option.getD_some] at hCount
          rw [← hCount]
          exact (accounted.issued ticket agent held.1).2.2 entry (hEntry ▸ hPending)
    have hSome := Account.ticketFor_isSome held hNumber
    rw [hEntry] at hSome
    obtain ⟨first, hFirst⟩ := Option.isSome_iff_exists.mp hSome
    refine ⟨⟨first, ?_, (Account.ticketFor_some hFirst).2.1⟩, ?_⟩
    · simp only [see, hFirst, Account.enter_phase]
    · simp only [note, DeliveryState.setAttempt_self]
  · cases hError

/-- A lookup uses the delivery up that the worker is at, and no other. -/
theorem ration_getDocument {found : Nat} (tenantId : String) (id : UUID)
    (hNew : message.id ∉ rest) (h : HasDeliveries agent rest now)
    (working : AtDelivery agent message.id found .handling now)
    {post : Except Failure (Option StoredDocument) → DeliveryState × Account → Prop}
    (hPost : ∀ answer later, HasDeliveries agent rest later →
      AtDelivery agent message.id found .looked later → post answer later) :
    (rationed setting maximum).Safe agent ((backend setting).getDocument tenantId id) post
      now := by
  apply ration_call
  · intro later hRetains _
    obtain ⟨⟨ticket, hPhase, hEntry⟩, hAttempt⟩ := working.retains hRetains
    exact ⟨ticket, found, hPhase, hEntry ▸ hAttempt⟩
  · intro later choice answer after hRetains accounted hPerform
    obtain ⟨⟨ticket, hPhase, hEntry⟩, hAttempt⟩ := working.retains hRetains
    have hSee : see agent after (.getDocument tenantId id) answer later.2 =
        (later.2.spend ticket).enter agent (.looked ticket found) := by
      simp only [see, hPhase]
    rw [hSee]
    apply hPost
    · intro other hOther
      obtain ⟨held, hHeld, rfl⟩ := (h.retains hRetains) other hOther
      refine ⟨held, ⟨hHeld.1, fun hSpent => ?_⟩, rfl⟩
      rcases List.mem_cons.mp hSpent with rfl | hEarlier
      · exact hNew (hEntry ▸ hOther)
      · exact hHeld.2 hEarlier
    · refine ⟨⟨ticket, Account.enter_phase .., hEntry⟩, ?_⟩
      obtain ⟨middle, rfl, hMiddle⟩ := perform_cases hPerform
      have hKept : (middle.attempts agent).entry = some message.id := by
        rcases hMiddle with ⟨rfl, -⟩ | ⟨own, hEffect, -⟩
        · exact hAttempt
        · cases hEffect
          exact hAttempt
      cases answer with
      | ok document =>
          simp only [note, DeliveryState.setAttempt_self]
          exact hKept
      | error error => exact hKept

/-- Processing starts at a delivery whose count is within the maximum. -/
theorem ration_process {found : Nat} (hFound : found ≤ maximum) (event : WorkerEvent)
    (document : StoredDocument) (h : HasDeliveries agent rest now)
    (working : AtDelivery agent message.id found .looked now) :
    (rationed setting maximum).Safe agent (process (backend setting) event document)
      (fun _ later => HasDeliveries agent rest later) now := by
  rw [process_eq]
  apply Safe.bind
  apply ration_call
  · intro later hRetains _
    obtain ⟨⟨ticket, hPhase, hEntry⟩, hAttempt⟩ := working.retains hRetains
    exact ⟨ticket, found, hPhase, hEntry ▸ hAttempt, hFound⟩
  · intro later choice answer after hRetains accounted hPerform
    have hOwn := (h.retains hRetains).own accounted (fun _ _ hCall => by cases hCall) hPerform
    cases answer with
    | error error => exact hOwn
    | ok marked => exact ration_free (makes_processMarked event document) hOwn

/-- A document that was looked up is processed only where the count is within the maximum. -/
theorem ration_found (settings : WorkerSettings) (hMaximum : settings.maxAttempts ≤ maximum)
    {attempts : Nat} (event : WorkerEvent) (document : StoredDocument)
    (h : HasDeliveries agent rest now)
    (working : AtDelivery agent message.id attempts .looked now) :
    (rationed setting maximum).Safe agent
      (handleLooked (backend setting) settings message event attempts (.ok document))
      (fun _ later => HasDeliveries agent rest later) now := by
  simp only [handleLooked]
  split_ifs with hCompleted hOver
  · exact ration_free (Program.Makes.perform trivial) h
  · exact ration_free ((settles_free setting).fail message event _ attempts) h
  · apply Safe.andThen
    apply (ration_process ((Nat.not_lt.mp hOver).trans hMaximum) event document h working).mono
    intro outcome processed hProcessed
    exact ration_free ((settles_free setting).settle message event attempts outcome) hProcessed

/-- A handling makes one lookup, and processes a document only within the maximum. -/
theorem ration_handle (settings : WorkerSettings) (hMaximum : settings.maxAttempts ≤ maximum)
    (hNew : message.id ∉ rest) (h : HasDeliveries agent (message.id :: rest) now) :
    (rationed setting maximum).Safe agent
      (handle (backend setting) setting.codec settings message)
      (fun _ later => HasDeliveries agent rest later) now := by
  apply Safe.bind
  apply ration_pending h
  intro answer later hLater hCounted
  cases answer with
  | error error => exact hLater
  | ok attempts =>
      simp only
      split_ifs with hNone
      · exact hLater
      · cases WorkerEvent.modelValidate setting.codec message.fields with
        | none => exact ration_free ((settles_free setting).deadLetter message _ attempts) hLater
        | some event =>
            apply Safe.tryCatch
            have hValid : (rationed setting maximum).Safe agent
                (handleValid (backend setting) settings message event attempts)
                (fun _ later => HasDeliveries agent rest later) later := by
              apply Safe.andThen
              apply Safe.bind
              apply ration_getDocument _ _ hNew hLater (hCounted attempts rfl hNone)
              intro found looked hLooked working
              have hError (error : Failure) : (rationed setting maximum).Safe agent
                  (handleLooked (backend setting) settings message event attempts (.error error))
                  (fun _ later => HasDeliveries agent rest later) looked :=
                ration_free ((settles_free setting).lookedError settings message event attempts error)
                  hLooked
              cases found with
              | error error => exact hError error
              | ok found =>
                  cases found with
                  | none => exact hError _
                  | some document =>
                      simp only
                      split_ifs
                      · exact ration_found settings hMaximum event document hLooked working
                      · exact hError _
            apply hValid.mono
            intro outcome handled hHandled
            cases outcome with
            | ok done => exact hHandled
            | error error =>
                simp only
                split_ifs
                · exact hHandled
                · exact hHandled

theorem ration_handleAll (settings : WorkerSettings) (hMaximum : settings.maxAttempts ≤ maximum)
    {messages : List StreamMessage} (hDistinct : (messages.map StreamMessage.id).Nodup)
    (h : HasDeliveries agent (messages.map StreamMessage.id) now) :
    (rationed setting maximum).Safe agent
      (handleAll (backend setting) setting.codec settings messages) (fun _ _ => True) now := by
  induction messages generalizing now with
  | nil => trivial
  | cons message rest ih =>
      obtain ⟨hNew, hRest⟩ := List.nodup_cons.mp hDistinct
      have hFree (request : Call) (hFree : Free request) {later : DeliveryState × Account}
          (hLater : HasDeliveries agent ((message :: rest).map StreamMessage.id) later) :=
        @ration_free setting maximum agent later _ _ (call request)
          (Program.Makes.perform hFree) hLater
      apply Safe.bind
      apply (hFree (.outside .stopping) trivial h).mono
      intro stopping asked hAsked
      cases stopping with
      | error error => trivial
      | ok stopping =>
          simp only
          split_ifs
          · trivial
          · apply Safe.bind
            apply (hFree (.stream .heartbeat) trivial hAsked).mono
            intro beat later hLater
            cases beat with
            | error error => trivial
            | ok beat =>
                apply Safe.bind
                apply (ration_handle settings hMaximum hNew hLater).mono
                intro outcome handled hHandled
                cases outcome with
                | error error => trivial
                | ok done => exact ih hRest hHandled

end Worker

end DocInsight.Delivery
