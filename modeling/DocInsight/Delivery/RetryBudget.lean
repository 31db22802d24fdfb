import DocInsight.Delivery.Invocations

/-! The retry budget of an entry: processing is invoked at most so often, and a handling
that finds the budget exceeded gives the entry up. -/
namespace DocInsight.Delivery

open DocInsight.Contracts DocInsight.Worker Interaction Interaction.Discipline

/-- A handling that finds more deliveries than the maximum; whatever else it asks may be
answered by anything. -/
def exceeding (maximum : Nat) : (request : Call) → Except Failure (Response request) → Bool
  | .stream (.pending _), .ok found => maximum < found
  | _, _ => true

/-- The calls of the processing of a document. -/
def Call.IsProcessing : Call → Prop
  | .markStatus _ _ status _ => status ≠ .failed
  | .upsertDocument _ _ _ => True
  | .outside query => query ≠ .stopping ∧ query ≠ .clock ∧ query ≠ .wait
  | _ => False

/-- The lookup has found the document of the event, and it was not completed. -/
def FindsUnfinished (event : WorkerEvent) (made : Exchanges) : Prop :=
  ∃ document, ⟨.getDocument event.tenantId event.documentId, .ok (some document)⟩ ∈ made ∧
    Describes event document.toDocumentRow ∧ completed document.toDocumentRow = false

/-- The exchange by which a lookup finds an unfinished document. -/
def findsUnfinished (event : WorkerEvent) : Exchange Call Response Failure → Bool
  | ⟨.getDocument tenantId id, .ok (some document)⟩ =>
      tenantId = event.tenantId ∧ id = event.documentId ∧
        Describes event document.toDocumentRow ∧ completed document.toDocumentRow = false
  | _ => false

instance (event : WorkerEvent) (made : Exchanges) : Decidable (FindsUnfinished event made) :=
  decidable_of_iff (made.any (findsUnfinished event)) <| by
    rw [List.any_eq_true]
    constructor
    · rintro ⟨exchange, hMade, hFinds⟩
      unfold findsUnfinished at hFinds
      split at hFinds
      · rename_i document
        obtain ⟨rfl, rfl, hDocument⟩ := of_decide_eq_true hFinds
        exact ⟨document, hMade, hDocument⟩
      · cases hFinds
    · rintro ⟨document, hMade, hDocument⟩
      exact ⟨_, hMade, decide_eq_true ⟨rfl, rfl, hDocument⟩⟩

/-- The document is marked as failed, and its message is dead-lettered. -/
structure GivenUp (message : StreamMessage) (event : WorkerEvent) (made : Exchanges) : Prop where
  failed : ⟨.markStatus event.tenantId event.documentId .failed
    (some "DeliveryLimit: retry budget exhausted"), .ok ()⟩ ∈ made
  deadLettered : ∃ attempts, ⟨.stream (.addDeadLetter (deadLetterFields message.fields
    "DeliveryLimit: retry budget exhausted" attempts)), .ok ()⟩ ∈ made

/-- Nothing is processed, and an entry whose document is unfinished is acknowledged only
once it is given up. -/
def GivesUp (message : StreamMessage) (event : WorkerEvent) (made : Exchanges)
    (request : Call) : Prop :=
  ¬request.IsProcessing ∧ ∀ id, request = .stream (.acknowledge id) →
    FindsUnfinished event made → GivenUp message event made

section Exhausted
variable {setting : Setting} {maximum : Nat} {message : StreamMessage} {event : WorkerEvent}
  {made : Exchanges}

/-- A handling of an entry whose budget is exceeded. -/
def exhausted (maximum : Nat) (message : StreamMessage) (event : WorkerEvent) :
    Discipline (Environment.alone (answering (exceeding maximum))) :=
  alone _ (fun _ _ => True) (fun _ => GivesUp message event) fun _ _ _ _ _ _ _ _ _ => trivial

theorem exhausted_call {request : Call}
    {post : Except Failure (Response request) → Unit × Exchanges → Prop}
    (givesUp : GivesUp message event made request)
    (hPost : ∀ answer, exceeding maximum request answer = true →
      post answer ((), made ++ [⟨request, answer⟩])) :
    (exhausted maximum message event).Safe () (call request) post ((), made) := by
  apply Safe.alone_perform
  · exact fun _ => givesUp
  · intro choice answer after _ hAnswers _
    simp only [answering] at hAnswers
    split_ifs at hAnswers with hMay
    cases hAnswers
    exact hPost _ hMay

theorem exhausted_acknowledge (h : FindsUnfinished event made → GivenUp message event made) :
    (exhausted maximum message event).Safe () ((backend setting).stream (.acknowledge message.id))
      (fun _ _ => True) ((), made) := by
  have givesUp : GivesUp message event made (.stream (.acknowledge message.id)) :=
    ⟨id, fun _ _ => h⟩
  exact exhausted_call givesUp fun _ _ => trivial

theorem exhausted_deadLetter (error : String) (attempts : Nat)
    (h : FindsUnfinished event made → GivenUp message event (made ++
      [⟨.stream (.addDeadLetter (deadLetterFields message.fields error attempts)), .ok ()⟩])) :
    (exhausted maximum message event).Safe () (deadLetter (backend setting) message error attempts)
      (fun _ _ => True) ((), made) := by
  have givesUp : GivesUp message event made
      (.stream (.addDeadLetter (deadLetterFields message.fields error attempts))) :=
    ⟨id, fun _ hCall => nomatch hCall⟩
  apply Safe.bind
  apply exhausted_call givesUp
  intro answer _
  cases answer with
  | error error => trivial
  | ok added =>
      apply exhausted_acknowledge
      rintro ⟨document, hFound, hDocument⟩
      apply h
      rcases List.mem_append.mp hFound with hEarlier | hLast
      · exact ⟨document, hEarlier, hDocument⟩
      · cases List.mem_singleton.mp hLast

/-- The document is marked as failed, and then the message is dead-lettered. -/
theorem exhausted_fail (attempts : Nat) :
    (exhausted maximum message event).Safe ()
      (fail (backend setting) message event "DeliveryLimit: retry budget exhausted" attempts)
      (fun _ _ => True) ((), made) := by
  have givesUp : GivesUp message event made (.markStatus event.tenantId event.documentId .failed
      (some "DeliveryLimit: retry budget exhausted")) :=
    ⟨fun hProcessing => hProcessing rfl, fun _ hCall => nomatch hCall⟩
  apply Safe.bind
  apply exhausted_call givesUp
  intro answer _
  cases answer with
  | error error => trivial
  | ok marked =>
      apply exhausted_deadLetter
      intro _
      constructor
      · exact List.mem_append_left _ (List.mem_append_right _ (List.mem_singleton_self _))
      · exact ⟨attempts, List.mem_append_right _ (List.mem_singleton_self _)⟩

/-- A lookup that has raised an error, or has found no unfinished document, leads to no
processing. -/
theorem exhausted_lookedError (settings : WorkerSettings) (attempts : Nat) (error : Failure)
    (hNone : ¬FindsUnfinished event made) :
    (exhausted maximum message event).Safe ()
      (handleLooked (backend setting) settings message event attempts (.error error))
      (fun _ _ => True) ((), made) := by
  simp only [handleLooked]
  split_ifs
  · trivial
  · apply exhausted_deadLetter
    exact fun hFound => absurd hFound hNone
  · trivial

theorem exhausted_found (settings : WorkerSettings) {attempts : Nat}
    (hExceeds : settings.maxAttempts < attempts) (document : StoredDocument)
    (hCompleted : completed document.toDocumentRow = true → ¬FindsUnfinished event made) :
    (exhausted maximum message event).Safe ()
      (handleLooked (backend setting) settings message event attempts (.ok document))
      (fun _ _ => True) ((), made) := by
  simp only [handleLooked]
  split_ifs with hDone
  · apply exhausted_acknowledge
    exact fun hFound => absurd hFound (hCompleted hDone)
  · exact exhausted_fail attempts

/-- What one lookup finds, where there has been no other. -/
theorem findsUnfinished_iff {found : Nat} {tenantId : String} {id : UUID}
    {answer : Except Failure (Option StoredDocument)}
    (h : FindsUnfinished event ([⟨.stream (.pending message.id), .ok found⟩] ++
      [⟨.getDocument tenantId id, answer⟩])) :
    ∃ document, answer = .ok (some document) ∧ Describes event document.toDocumentRow ∧
      completed document.toDocumentRow = false := by
  obtain ⟨document, hFound, hDocument⟩ := h
  refine ⟨document, ?_, hDocument⟩
  rcases List.mem_cons.mp hFound with hFirst | hSecond
  · cases hFirst
  · cases List.mem_singleton.mp hSecond
    rfl

theorem exhausted_handle {settings : WorkerSettings}
    (hValid : WorkerEvent.modelValidate setting.codec message.fields = some event) :
    (exhausted settings.maxAttempts message event).Safe ()
      (handle (backend setting) setting.codec settings message) (fun _ _ => True) ((), []) := by
  have hPending : GivesUp message event [] (.stream (.pending message.id)) :=
    ⟨id, fun _ hCall => nomatch hCall⟩
  apply Safe.bind
  apply exhausted_call hPending
  intro answer hExceeds
  cases answer with
  | error error => trivial
  | ok attempts =>
      simp only [hValid]
      split_ifs
      · trivial
      · have hHandled : (exhausted settings.maxAttempts message event).Safe ()
            (handleValid (backend setting) settings message event attempts) (fun _ _ => True)
            ((), [⟨.stream (.pending message.id), .ok attempts⟩]) := by
          have hLookup : GivesUp message event [⟨.stream (.pending message.id), .ok attempts⟩]
              (.getDocument event.tenantId event.documentId) :=
            ⟨id, fun _ hCall => nomatch hCall⟩
          apply Safe.andThen
          apply Safe.bind
          apply exhausted_call hLookup
          intro found _
          cases found with
          | error error =>
              apply exhausted_lookedError
              rintro hFound
              obtain ⟨document, hAnswer, -⟩ := findsUnfinished_iff hFound
              cases hAnswer
          | ok found =>
              cases found with
              | none =>
                  apply exhausted_lookedError
                  rintro hFound
                  obtain ⟨document, hAnswer, -⟩ := findsUnfinished_iff hFound
                  cases hAnswer
              | some document =>
                  simp only
                  split_ifs with hDescribes
                  · apply exhausted_found settings (of_decide_eq_true hExceeds)
                    rintro hCompleted hFound
                    obtain ⟨other, hAnswer, -, hUnfinished⟩ := findsUnfinished_iff hFound
                    cases hAnswer
                    cases hCompleted.symm.trans hUnfinished
                  · apply exhausted_lookedError
                    rintro hFound
                    obtain ⟨other, hAnswer, hOther, -⟩ := findsUnfinished_iff hFound
                    cases hAnswer
                    exact hDescribes hOther
        apply Safe.tryCatch
        apply hHandled.mono
        intro outcome handled _
        cases outcome with
        | ok done => trivial
        | error error =>
            simp only
            split_ifs
            · trivial
            · trivial

end Exhausted

/-- A handling that finds its budget exceeded goes on by one call, whatever the answer. -/
abbrev exceedingStep (maximum : Nat) :
    Pool Unit (Unit × Exchanges) Call Response Failure Unit →
      Action Unit ((request : Call) → Except Failure (Response request)) Empty →
      Option (Pool Unit (Unit × Exchanges) Call Response Failure Unit) :=
  Pool.step (Environment.alone (answering (exceeding maximum)))

/-- However the deliveries of an entry to any number of workers interleave with their
handling of it, processing is invoked for it at most as often as the maximum says; and a
handling of a valid event that finds more deliveries processes nothing, and acknowledges
the entry of an unfinished document only once it is marked as failed and dead-lettered. -/
theorem processing_bounded {setting : Setting} {maximum : Nat} {processes : Nat → Process}
    (hLimit : WithinLimit maximum processes) :
    (∀ moves entry, invocations setting entry moves (start setting processes) ≤ maximum) ∧
    ∀ (settings : WorkerSettings) message event actions finish request next,
      WorkerEvent.modelValidate setting.codec message.fields = some event →
      Transition.run (exceedingStep settings.maxAttempts) actions
        ((handle (backend setting) setting.codec settings message).alone ()) = some finish →
      finish.programs () = some (.call request next) →
      ¬request.IsProcessing ∧ ∀ id, request = .stream (.acknowledge id) →
        FindsUnfinished event finish.state.2 → GivenUp message event finish.state.2 := by
  constructor
  · intro moves entry
    exact (Nat.le_add_right _ _).trans (invocations_le moves (rationed_start hLimit))
  · intro settings message event actions finish request next hValid hRun hNext
    obtain ⟨-, hGuard, -⟩ := Safe.alone_run trivial (exhausted_handle hValid) hRun
    exact hGuard request next hNext

/-- The sample upload is found to have been delivered six times. -/
def overdue : (request : Call) → Except Failure (Response request)
  | .stream (.pending _) => .ok (6 : Nat)
  | .markStatus _ _ _ _ => .ok ()
  | request => failingMarks .operational request

/-- The entry that a program is about to acknowledge. -/
def acknowledges : Option (Task Unit) → Option Nat
  | some (.call (.stream (.acknowledge id)) _) => some id
  | _ => none

theorem eq_of_acknowledges {program : Option (Task Unit)} {id : Nat}
    (h : acknowledges program = some id) :
    ∃ next, program = some (.call (.stream (.acknowledge id)) next) := by
  unfold acknowledges at h
  split at h
  · cases h
    exact ⟨_, rfl⟩
  · cases h

/-- The sixth delivery is given up before it is acknowledged. -/
theorem processing_bounded_overdue :
    (∀ moves entry, invocations sampleSetting entry moves
        (start sampleSetting sampleProcesses) ≤ 5) ∧
      ∃ finish next, Transition.run (exceedingStep 5) (List.replicate 4 (.advance () overdue))
          ((handle (backend sampleSetting) sampleSetting.codec {} sampleEntry).alone ()) =
            some finish ∧
        finish.programs () = some (.call (.stream (.acknowledge 0)) next) ∧
        GivenUp sampleEntry sampleUpload.event finish.state.2 := by
  have hLimit : WithinLimit 5 sampleProcesses := by
    intro agent settings turns memory hProcess
    cases agent with
    | zero => cases hProcess
    | succ agent =>
        cases hProcess
        exact le_rfl
  have hFinish : (Transition.run (exceedingStep 5) (List.replicate 4 (.advance () overdue))
      ((handle (backend sampleSetting) sampleSetting.codec {} sampleEntry).alone ())).map
        (fun finish => (acknowledges (finish.programs ()),
          decide (FindsUnfinished sampleUpload.event finish.state.2))) = some (some 0, true) := by
    decide +kernel
  obtain ⟨finish, hRun, hFacts⟩ := Option.map_eq_some_iff.mp hFinish
  obtain ⟨hAcknowledges, hFinds⟩ := Prod.mk.inj hFacts
  obtain ⟨next, hNext⟩ := eq_of_acknowledges hAcknowledges
  obtain ⟨hBounded, hGivesUp⟩ := processing_bounded hLimit
  refine ⟨hBounded, finish, next, hRun, hNext, ?_⟩
  have hValid := WorkerEvent.modelValidate_streamFields libraryCodec_lawful sampleUpload.event
  exact (hGivesUp {} sampleEntry sampleUpload.event _ _ _ _ hValid hRun hNext).2 0 rfl
    (of_decide_eq_true hFinds)

end DocInsight.Delivery
