import DocInsight.Delivery.Acknowledgement
import DocInsight.Delivery.OwnDocument

/-! Which errors of its dependencies end a consumer. Whatever a call raises, the consumer
goes on, but for two calls whose other errors no handler catches. -/
namespace DocInsight.Delivery

open DocInsight.Contracts DocInsight.Worker Interaction Interaction.Discipline

/-- Every call may be answered by whatever is allowed. -/
def answering (allowed : (request : Call) → Except Failure (Response request) → Bool) :
    Answers Unit Call ((request : Call) → Except Failure (Response request)) Response Failure :=
  fun _ request choice => if allowed request (choice request) then some (choice request, ()) else none

/-- The repository, the object store, the pipeline and the temporary files raise anything,
the stream raises only errors of Redis, and asking the clock or the stop event, nothing. -/
def mayAnswer : (request : Call) → Except Failure (Response request) → Bool
  | .stream _, .error error => error.isRedis
  | .outside .stopping, .error _ | .outside .clock, .error _ | .outside .wait, .error _ => false
  | _, _ => true

/-- The errors that the loop of the consumer catches. -/
def caught (error : Failure) : Bool := error.isRedis || error.isTransient

/-- An answer that no handler catches: an error of a lookup that is no invalid reference,
or of the status change that records a failure. -/
def escapes : Exchange Call Response Failure → Bool
  | ⟨.getDocument _ _, .error error⟩ => !(caught error || error.isReference)
  | ⟨.markStatus _ _ .failed _, .error error⟩ => !caught error
  | _ => false

def NoneEscapes (made : Exchanges) : Prop := ∀ exchange ∈ made, escapes exchange = false

instance (made : Exchanges) : Decidable (NoneEscapes made) :=
  inferInstanceAs (Decidable (∀ exchange ∈ made, escapes exchange = false))

/-- Handling returned normally or raised what the loop catches. -/
def Returns {Result : Type} (outcome : Except Failure Result) : Prop :=
  ∀ error, outcome = .error error → caught error = true

/-- The work on a document was done: it was found completed, or it has been processed. -/
def Accomplished (made : Exchanges) : Prop :=
  (∃ tenantId id document, ⟨.getDocument tenantId id, .ok (some document)⟩ ∈ made ∧
    completed document.toDocumentRow = true) ∨
  ∃ tenantId id, ⟨.markStatus tenantId id .processed none, .ok ()⟩ ∈ made

def DeadLettered (made : Exchanges) : Prop :=
  ∃ fields, ⟨.stream (.addDeadLetter fields), .ok ()⟩ ∈ made

/-- A message whose work was not done ends pending or dead-lettered. -/
def EndsSafely (made : Exchanges) : Prop :=
  Accomplished made ∨ DeadLettered made ∨
    ∀ id answer, ⟨.stream (.acknowledge id), answer⟩ ∉ made

/-- Something durable came of a message. -/
abbrev Concluded (made : Exchanges) : Prop := Accomplished made ∨ DeadLettered made

/-- What was acknowledged is concluded. -/
def AcknowledgesConcluded (_ : Unit) (made : Exchanges) : Prop :=
  ∀ id answer, ⟨.stream (.acknowledge id), answer⟩ ∈ made → Concluded made

/-- Nothing is called after an answer that escapes, and only what is concluded is
acknowledged. -/
def GoesOn (_ : Unit) (made : Exchanges) : Call → Prop
  | .stream (.acknowledge _) => NoneEscapes made ∧ Concluded made
  | _ => NoneEscapes made

theorem Concluded.append {made : Exchanges} (h : Concluded made)
    (exchange : Exchange Call Response Failure) : Concluded (made ++ [exchange]) := by
  rcases h with (⟨tenantId, id, document, hFound, hCompleted⟩ | ⟨tenantId, id, hMarked⟩) |
    ⟨fields, hAdded⟩
  · exact Or.inl (Or.inl ⟨tenantId, id, document, List.mem_append_left _ hFound, hCompleted⟩)
  · exact Or.inl (Or.inr ⟨tenantId, id, List.mem_append_left _ hMarked⟩)
  · exact Or.inr ⟨fields, List.mem_append_left _ hAdded⟩

theorem noneEscapes_append {made : Exchanges} {exchange : Exchange Call Response Failure} :
    NoneEscapes (made ++ [exchange]) ↔ NoneEscapes made ∧ escapes exchange = false := by
  simp [NoneEscapes, or_imp, forall_and]

section Surviving
variable {allowed : (request : Call) → Except Failure (Response request) → Bool}

theorem acknowledgesConcluded_step (state : Unit) (made : Exchanges) (request : Call)
    (choice : (request : Call) → Except Failure (Response request))
    (answer : Except Failure (Response request)) (after : Unit)
    (hMade : AcknowledgesConcluded state made) (goesOn : GoesOn state made request)
    (_ : answering allowed state request choice = some (answer, after)) :
    AcknowledgesConcluded after (made ++ [⟨request, answer⟩]) := by
  intro id acknowledged hAcknowledged
  apply Concluded.append
  rcases List.mem_append.mp hAcknowledged with hEarlier | hLast
  · exact hMade id acknowledged hEarlier
  · cases List.mem_singleton.mp hLast
    exact goesOn.2

/-- A consumer alone with its dependencies. -/
def surviving : Discipline (Environment.alone (answering mayAnswer)) :=
  alone _ AcknowledgesConcluded GoesOn acknowledgesConcluded_step

variable {made : Exchanges} {message : StreamMessage} {event : WorkerEvent}

/-- One call: its answer escapes or not. -/
theorem surviving_call {request : Call}
    {post : Except Failure (Response request) → Unit × Exchanges → Prop}
    (goesOn : GoesOn () made request)
    (hPost : ∀ answer, mayAnswer request answer = true →
      post answer ((), made ++ [⟨request, answer⟩])) :
    surviving.Safe () (call request) post ((), made) := by
  apply Safe.alone_perform
  · exact fun _ => goesOn
  · intro choice answer after _ hAnswers _
    simp only [answering] at hAnswers
    split_ifs at hAnswers with hMay
    cases hAnswers
    exact hPost _ hMay

/-- A command on the stream raises only what is caught. -/
theorem surviving_stream {setting : Setting} {command : StreamCommand}
    {post : Except Failure command.Answer → Unit × Exchanges → Prop}
    (goesOn : GoesOn () made (.stream command))
    (hPost : ∀ answer, Returns answer → NoneEscapes (made ++ [⟨.stream command, answer⟩]) →
      post answer ((), made ++ [⟨.stream command, answer⟩])) :
    surviving.Safe () ((backend setting).stream command) post ((), made) := by
  have hMade : NoneEscapes made := by
    cases command with
    | acknowledge id => exact goesOn.1
    | _ => exact goesOn
  apply surviving_call goesOn
  intro answer hMay
  apply hPost answer
  · rintro error rfl
    have hRedis : error.isRedis = true := hMay
    rw [caught, hRedis, Bool.true_or]
  · exact noneEscapes_append.mpr ⟨hMade, rfl⟩

/-- A question to the outside never escapes. -/
theorem surviving_outside {setting : Setting} {query : Outside}
    {post : Except Failure query.Answer → Unit × Exchanges → Prop} (hMade : NoneEscapes made)
    (hPost : ∀ answer, mayAnswer (.outside query) answer = true →
      NoneEscapes (made ++ [⟨.outside query, answer⟩]) →
      post answer ((), made ++ [⟨.outside query, answer⟩])) :
    surviving.Safe () ((backend setting).outside query) post ((), made) := by
  have goesOn : GoesOn () made (.outside query) := hMade
  apply surviving_call goesOn
  intro answer hMay
  exact hPost answer hMay (noneEscapes_append.mpr ⟨hMade, rfl⟩)

/-- What a program comes to is caught if and only if no answer escaped. -/
abbrev Survives {Result : Type} : Except Failure Result → Unit × Exchanges → Prop :=
  fun outcome now => Returns outcome ↔ NoneEscapes now.2

/-- No answer has escaped, whatever the outcome is. -/
abbrev Unharmed {Result : Type} : Except Failure Result → Unit × Exchanges → Prop :=
  fun _ now => NoneEscapes now.2

theorem returns_ok {Result : Type} (result : Result) : Returns (.ok result : Except Failure Result) :=
  fun _ h => nomatch h

theorem returns_error {Result : Type} {error : Failure} :
    Returns (.error error : Except Failure Result) ↔ caught error = true := by
  constructor
  · exact fun h => h error rfl
  · rintro h raised hRaised
    cases hRaised
    exact h

variable {setting : Setting}

theorem surviving_acknowledge (hMade : NoneEscapes made) (hConcluded : Concluded made) (id : Nat) :
    surviving.Safe () ((backend setting).stream (.acknowledge id)) Survives ((), made) := by
  have goesOn : GoesOn () made (.stream (.acknowledge id)) := ⟨hMade, hConcluded⟩
  apply surviving_stream goesOn
  intro answer hReturns hNone
  exact iff_of_true hReturns hNone

theorem surviving_deadLetter (hMade : NoneEscapes made) (message : StreamMessage) (error : String)
    (attempts : Nat) :
    surviving.Safe () (deadLetter (backend setting) message error attempts) Survives
      ((), made) := by
  have goesOn : GoesOn () made
    (.stream (.addDeadLetter (deadLetterFields message.fields error attempts))) := hMade
  apply Safe.bind
  apply surviving_stream goesOn
  intro answer hReturns hNone
  cases answer with
  | error error => exact iff_of_true (returns_error.mpr (returns_error.mp hReturns)) hNone
  | ok added =>
      apply surviving_acknowledge hNone
      exact Or.inr ⟨_, List.mem_append_right _ (List.mem_singleton_self _)⟩

/-- Recording a failure escapes where its status change does. -/
theorem surviving_fail (hMade : NoneEscapes made) (message : StreamMessage) (event : WorkerEvent)
    (error : String) (attempts : Nat) :
    surviving.Safe () (fail (backend setting) message event error attempts) Survives
      ((), made) := by
  have goesOn : GoesOn () made
    (.markStatus event.tenantId event.documentId .failed (some error)) := hMade
  apply Safe.bind
  apply surviving_call goesOn
  intro answer _
  cases answer with
  | error raised =>
      have hEscapes : caught raised = true ↔ NoneEscapes (made ++ [⟨.markStatus event.tenantId
          event.documentId .failed (some error), .error raised⟩]) := by
        rw [noneEscapes_append]
        simp [hMade, escapes]
      exact returns_error.trans hEscapes
  | ok marked =>
      apply surviving_deadLetter
      exact noneEscapes_append.mpr ⟨hMade, rfl⟩

/-- Reading an object raises nothing that escapes. -/
theorem surviving_readObject (hMade : NoneEscapes made) (reads : Nat) (data : Bytes) :
    surviving.Safe () (readObject (backend setting) event reads data) Unharmed ((), made) := by
  induction reads generalizing made data with
  | zero => exact hMade
  | succ reads ih =>
      apply Safe.bind
      apply surviving_outside hMade
      intro answer _ hNone
      cases answer with
      | error error => exact hNone
      | ok more =>
          simp only
          split_ifs
          · exact hNone
          · exact hNone
          · exact ih hNone _

theorem surviving_download (hMade : NoneEscapes made) :
    surviving.Safe () (download (backend setting) event) Unharmed ((), made) := by
  apply Safe.bind
  apply Safe.tryCatch
  apply Safe.bind
  apply surviving_outside hMade
  intro answer _ hNone
  cases answer with
  | error error => exact hNone
  | ok opened =>
      apply (surviving_readObject hNone (event.sizeBytes + 1) []).mono
      intro outcome now hNow
      cases outcome with
      | error error => exact hNow
      | ok data =>
          simp only
          split_ifs
          · exact hNow
          · cases mediaType (data.take 8) with
            | error error => exact hNow
            | ok kind =>
                simp only
                split_ifs
                · exact hNow
                · exact hNow

theorem surviving_index (hMade : NoneEscapes made) (path : String) (data : Bytes)
    (tenantId : String) (filename : Option String) :
    surviving.Safe () (index (backend setting) path data tenantId filename) Unharmed
      ((), made) := by
  unfold index
  cases mediaType data with
  | error error => exact hMade
  | ok kind =>
      apply Safe.bind
      apply surviving_outside hMade
      intro answer _ hNone
      cases answer with
      | error error => exact hNone
      | ok output =>
          apply surviving_call (show GoesOn () _ (.upsertDocument tenantId _ _) from hNone)
          intro stored _
          exact noneEscapes_append.mpr ⟨hNone, rfl⟩

/-- Whatever is raised while a document is processed, none of it escapes by itself. -/
theorem surviving_process (hMade : NoneEscapes made) (document : StoredDocument) :
    surviving.Safe () (process (backend setting) event document)
      (fun outcome now => NoneEscapes now.2 ∧ (outcome = .ok () → Accomplished now.2))
      ((), made) := by
  have goesOn : GoesOn () made
    (.markStatus event.tenantId event.documentId .processing none) := hMade
  have hRaised {error : Failure} {later : Exchanges} (hLater : NoneEscapes later) :
      NoneEscapes later ∧ ((.error error : Except Failure Unit) = .ok () → Accomplished later) :=
    ⟨hLater, fun h => nomatch h⟩
  apply Safe.bind
  apply surviving_call goesOn
  intro marked _
  have hMarked : NoneEscapes (made ++ [⟨.markStatus event.tenantId event.documentId .processing
      none, marked⟩]) := noneEscapes_append.mpr ⟨hMade, rfl⟩
  cases marked with
  | error error => exact hRaised hMarked
  | ok marked =>
      apply Safe.bind
      apply surviving_outside hMarked
      intro created _ hCreated
      cases created with
      | error error => exact hRaised hCreated
      | ok created =>
          apply Safe.bind
          apply Safe.tryFinally
          apply Safe.bind
          apply (surviving_download hCreated).mono
          rintro downloaded ⟨_, reached⟩ hReached
          cases downloaded with
          | error error =>
              apply surviving_outside hReached
              intro removed _ hRemoved
              cases removed with
              | error error => exact hRaised hRemoved
              | ok removed => exact hRaised hRemoved
          | ok data =>
              apply (surviving_index hReached "original" data event.tenantId
                (some document.filename)).mono
              rintro indexed ⟨_, stored⟩ hStored
              apply surviving_outside hStored
              intro removed _ hRemoved
              cases removed with
              | error error => exact hRaised hRemoved
              | ok removed =>
                  cases indexed with
                  | error error => exact hRaised hRemoved
                  | ok indexed =>
                      apply surviving_call (show GoesOn () _ (.markStatus event.tenantId
                        event.documentId .processed none) from hRemoved)
                      intro answer _
                      refine ⟨noneEscapes_append.mpr ⟨hRemoved, rfl⟩, ?_⟩
                      rintro rfl
                      refine Or.inr ⟨event.tenantId, event.documentId, ?_⟩
                      exact List.mem_append_right _ (List.mem_singleton_self _)

/-- What follows an attempt to process a document. -/
theorem surviving_settle {now : Unit × Exchanges} (hNow : NoneEscapes now.2)
    (attempts : Nat) {outcome : Except Failure Unit}
    (hDone : outcome = .ok () → Accomplished now.2) :
    surviving.Safe () (settle (backend setting) message event attempts outcome) Survives now := by
  cases outcome with
  | ok done => exact surviving_acknowledge hNow (Or.inl (hDone rfl)) message.id
  | error error =>
      simp only [settle]
      split_ifs with hTransient
      · refine iff_of_true (returns_error.mpr ?_) hNow
        rw [caught, hTransient, Bool.or_true]
      · exact surviving_fail hNow message event _ attempts

/-- What follows a lookup: an error that escaped is raised, and any other is caught or
gives the message up. -/
theorem surviving_lookedError (settings : WorkerSettings) (attempts : Nat) {error : Failure}
    {now : Unit × Exchanges} (hNow : NoneEscapes now.2 ↔ (caught error || error.isReference)) :
    surviving.Safe ()
      (handleLooked (backend setting) settings message event attempts (.error error)) Survives
      now := by
  simp only [handleLooked]
  split_ifs with hTransient hReference
  · have hCaught : caught error = true := by rw [caught, hTransient, Bool.or_true]
    refine iff_of_true (returns_error.mpr hCaught) (hNow.mpr ?_)
    rw [hCaught, Bool.true_or]
  · apply surviving_deadLetter
    exact hNow.mpr (by rw [hReference, Bool.or_true])
  · rw [Bool.eq_false_of_not_eq_true hReference, Bool.or_false] at hNow
    exact returns_error.trans hNow.symm

theorem surviving_found (settings : WorkerSettings) (attempts : Nat) {document : StoredDocument}
    (hMade : NoneEscapes made)
    (hFound : completed document.toDocumentRow = true → Accomplished made) :
    surviving.Safe ()
      (handleLooked (backend setting) settings message event attempts (.ok document)) Survives
      ((), made) := by
  simp only [handleLooked]
  split_ifs with hCompleted
  · exact surviving_acknowledge hMade (Or.inl (hFound hCompleted)) message.id
  · exact surviving_fail hMade message event _ attempts
  · apply Safe.andThen
    apply (surviving_process hMade document).mono
    rintro outcome now ⟨hNow, hDone⟩
    exact surviving_settle hNow attempts hDone

theorem surviving_handleValid (hMade : NoneEscapes made) (settings : WorkerSettings)
    (attempts : Nat) :
    surviving.Safe () (handleValid (backend setting) settings message event attempts) Survives
      ((), made) := by
  have goesOn : GoesOn () made (.getDocument event.tenantId event.documentId) := hMade
  apply Safe.andThen
  apply Safe.bind
  apply surviving_call goesOn
  intro answer _
  cases answer with
  | error error =>
      apply surviving_lookedError
      rw [noneEscapes_append, escapes, Bool.not_eq_false']
      exact and_iff_right hMade
  | ok found =>
      have hNone : NoneEscapes (made ++
          [⟨.getDocument event.tenantId event.documentId, .ok found⟩]) :=
        noneEscapes_append.mpr ⟨hMade, rfl⟩
      cases found with
      | none => exact surviving_lookedError settings attempts (iff_of_true hNone rfl)
      | some document =>
          simp only
          split_ifs
          · apply surviving_found settings attempts hNone
            intro hCompleted
            refine Or.inl ⟨event.tenantId, event.documentId, document, ?_, hCompleted⟩
            exact List.mem_append_right _ (List.mem_singleton_self _)
          · exact surviving_lookedError settings attempts (iff_of_true hNone rfl)

/-- Handling a message raises what the loop catches, unless an answer escapes. -/
theorem surviving_handle (hMade : NoneEscapes made) (settings : WorkerSettings)
    (message : StreamMessage) :
    surviving.Safe () (handle (backend setting) setting.codec settings message) Survives
      ((), made) := by
  have goesOn : GoesOn () made (.stream (.pending message.id)) := hMade
  apply Safe.bind
  apply surviving_stream goesOn
  intro answer hReturns hNone
  cases answer with
  | error error => exact iff_of_true (returns_error.mpr (returns_error.mp hReturns)) hNone
  | ok attempts =>
      simp only
      split_ifs
      · exact iff_of_true (returns_ok ()) hNone
      · cases WorkerEvent.modelValidate setting.codec message.fields with
        | none => exact surviving_deadLetter hNone message _ attempts
        | some event =>
            apply Safe.tryCatch
            apply (surviving_handleValid hNone settings attempts).mono
            intro outcome now hOutcome
            cases outcome with
            | ok done => exact hOutcome
            | error error =>
                simp only
                split_ifs with hTransient
                · refine iff_of_true (returns_ok ()) (hOutcome.mp (returns_error.mpr ?_))
                  rw [caught, hTransient, Bool.or_true]
                · exact hOutcome

theorem surviving_handleAll (hMade : NoneEscapes made) (settings : WorkerSettings)
    (messages : List StreamMessage) :
    surviving.Safe () (handleAll (backend setting) setting.codec settings messages) Survives
      ((), made) := by
  induction messages generalizing made with
  | nil => exact iff_of_true (returns_ok ()) hMade
  | cons message rest ih =>
      apply Safe.bind
      apply surviving_outside hMade
      intro stopping hMay hStopping
      cases stopping with
      | error error => cases hMay
      | ok stopping =>
          simp only
          split_ifs
          · exact iff_of_true (returns_ok ()) hStopping
          · apply Safe.bind
            apply surviving_stream (show GoesOn () _ (.stream .heartbeat) from hStopping)
            intro beat hReturns hBeat
            cases beat with
            | error error =>
                exact iff_of_true (returns_error.mpr (returns_error.mp hReturns)) hBeat
            | ok beat =>
                apply Safe.bind
                apply (surviving_handle hBeat settings message).mono
                intro outcome now hOutcome
                cases outcome with
                | ok done => exact ih (hOutcome.mp (returns_ok done))
                | error error => exact hOutcome

/-- A turn comes to an outcome that is caught if and only if no answer escaped. -/
abbrev SurvivesTurn :
    Except Failure (WorkerState × Except Failure Unit) → Unit × Exchanges → Prop
  | .ok (_, outcome), now => Survives outcome now
  | .error _, _ => False

theorem surviving_guarded {Result : Type} {worker : WorkerState} {program : Task Result}
    {next : Result → Task (WorkerState × Except Failure Unit)} {now : Unit × Exchanges}
    (h : surviving.Safe () program (fun outcome later => match outcome with
      | .ok result => surviving.Safe () (next result) SurvivesTurn later
      | .error error => caught error = true ↔ NoneEscapes later.2) now) :
    surviving.Safe () (guarded worker program next) SurvivesTurn now := by
  apply Safe.andThen
  apply h.mono
  intro outcome later hOutcome
  cases outcome with
  | ok result => exact hOutcome
  | error error => exact returns_error.trans hOutcome

/-- A turn goes on after a command on the stream, or ends with what it raised. -/
theorem surviving_guardedStream {worker : WorkerState} {command : StreamCommand}
    {next : command.Answer → Task (WorkerState × Except Failure Unit)}
    (goesOn : GoesOn () made (.stream command))
    (hNext : ∀ answer later, NoneEscapes later →
      surviving.Safe () (next answer) SurvivesTurn ((), later)) :
    surviving.Safe () (guarded worker ((backend setting).stream command) next) SurvivesTurn
      ((), made) := by
  apply surviving_guarded
  apply surviving_stream goesOn
  intro answer hReturns hNone
  cases answer with
  | error error => exact iff_of_true (returns_error.mp hReturns) hNone
  | ok answer => exact hNext answer _ hNone

/-- A turn goes on after a question that raises nothing. -/
theorem surviving_guardedOutside {worker : WorkerState} {query : Outside}
    {next : query.Answer → Task (WorkerState × Except Failure Unit)} (hMade : NoneEscapes made)
    (hQuery : ∀ error, mayAnswer (.outside query) (.error error) = false)
    (hNext : ∀ answer later, NoneEscapes later →
      surviving.Safe () (next answer) SurvivesTurn ((), later)) :
    surviving.Safe () (guarded worker ((backend setting).outside query) next) SurvivesTurn
      ((), made) := by
  apply surviving_guarded
  apply surviving_outside hMade
  intro answer hMay hNone
  cases answer with
  | error error =>
      rw [hQuery error] at hMay
      cases hMay
  | ok answer => exact hNext answer _ hNone

variable {settings : WorkerSettings}

theorem surviving_receive (hMade : NoneEscapes made) (worker : WorkerState)
    (reclaimed : List StreamMessage) :
    surviving.Safe () (receive (backend setting) setting.codec settings worker reclaimed)
      SurvivesTurn ((), made) := by
  have hHandled (messages : List StreamMessage) {later : Exchanges} (hLater : NoneEscapes later) :
      surviving.Safe () (guarded worker
        (handleAll (backend setting) setting.codec settings messages) fun _ =>
          guarded worker ((backend setting).stream .heartbeat) fun _ =>
          pure (worker, .ok ())) SurvivesTurn ((), later) := by
    apply surviving_guarded
    apply (surviving_handleAll hLater settings messages).mono
    rintro outcome ⟨_, handled⟩ hOutcome
    cases outcome with
    | error error => exact returns_error.symm.trans hOutcome
    | ok done =>
        apply surviving_guardedStream (show GoesOn () _ (.stream .heartbeat) from
          hOutcome.mp (returns_ok done))
        intro beat last hLast
        exact iff_of_true (returns_ok ()) hLast
  unfold receive
  split_ifs
  · apply surviving_guardedStream (show GoesOn () _ (.stream .readGroup) from hMade)
    intro messages later hLater
    exact hHandled messages hLater
  · apply surviving_guarded
    exact hHandled reclaimed hMade

theorem surviving_reclaim (hMade : NoneEscapes made) (worker : WorkerState) :
    surviving.Safe () (reclaim (backend setting) setting.codec settings worker) SurvivesTurn
      ((), made) := by
  apply surviving_guardedStream (show GoesOn () _ (.stream (.autoClaim worker.cursor)) from hMade)
  rintro ⟨cursor, messages⟩ claimed hClaimed
  simp only
  split_ifs
  · apply surviving_guardedOutside hClaimed fun _ => rfl
    intro now later hLater
    exact surviving_receive hLater _ messages
  · exact surviving_receive hClaimed _ messages

theorem surviving_runOnce (hMade : NoneEscapes made) (worker : WorkerState) :
    surviving.Safe () (runOnce (backend setting) setting.codec settings worker) SurvivesTurn
      ((), made) := by
  apply surviving_guardedOutside hMade fun _ => rfl
  intro stopping asked hAsked
  split
  · exact iff_of_true (returns_ok ()) hAsked
  · apply surviving_guarded
    have hReady : surviving.Safe ()
        (if worker.ready then pure () else (backend setting).stream .createGroup)
        (fun outcome later => NoneEscapes later.2 ∧ Returns outcome) ((), asked) := by
      split_ifs
      · exact ⟨hAsked, returns_ok ()⟩
      · apply surviving_stream (show GoesOn () _ (.stream .createGroup) from hAsked)
        intro answer hReturns hNone
        exact ⟨hNone, hReturns⟩
    apply hReady.mono
    rintro outcome ⟨_, ready⟩ ⟨hNone, hReturns⟩
    cases outcome with
    | error error => exact iff_of_true (returns_error.mp hReturns) hNone
    | ok created =>
        apply surviving_guardedStream (show GoesOn () _ (.stream .heartbeat) from hNone)
        intro beat later hLater
        split_ifs
        · exact surviving_reclaim hLater _
        · apply surviving_guardedOutside hLater fun _ => rfl
          intro now last hLast
          split_ifs
          · exact surviving_reclaim hLast _
          · exact surviving_receive hLast _ []

/-- The loop raises if and only if an answer escapes. -/
theorem surviving_run (hMade : NoneEscapes made) (turns : Nat) (worker : WorkerState) :
    surviving.Safe () (run (backend setting) setting.codec settings turns worker)
      (fun outcome now => outcome = .ok () ↔ NoneEscapes now.2) ((), made) := by
  induction turns generalizing made worker with
  | zero => exact iff_of_true rfl hMade
  | succ turns ih =>
      apply Safe.bind
      apply surviving_outside hMade
      intro stopping hMay hStopping
      cases stopping with
      | error error => cases hMay
      | ok stopping =>
          simp only
          split_ifs
          · exact iff_of_true rfl hStopping
          · apply Safe.bind
            apply (surviving_runOnce hStopping worker).mono
            rintro turn ⟨_, later⟩ hTurn
            cases turn with
            | error error => exact hTurn.elim
            | ok turn =>
                obtain ⟨next, outcome⟩ := turn
                cases outcome with
                | ok done => exact ih (hTurn.mp (returns_ok done)) next
                | error error =>
                    have hError : caught error = true ↔ NoneEscapes later :=
                      returns_error.symm.trans hTurn
                    simp only
                    split_ifs with hCaught
                    · apply Safe.bind
                      apply surviving_outside (hError.mp hCaught)
                      intro waited hMay hWaited
                      cases waited with
                      | error error => cases hMay
                      | ok waited => exact ih hWaited _
                    · exact iff_of_false (fun h => nomatch h) fun hNone =>
                        hCaught (hError.mpr hNone)

end Surviving

/-- A program of the consumer goes on by one call, whose answer is one that may be given. -/
abbrev survivingStep :
    Pool Unit (Unit × Exchanges) Call Response Failure Unit →
      Action Unit ((request : Call) → Except Failure (Response request)) Empty →
      Option (Pool Unit (Unit × Exchanges) Call Response Failure Unit) :=
  Pool.step (Environment.alone (answering mayAnswer))

/-- Handling a message returns or raises what the loop catches, and then a message whose
work is not done is pending or dead-lettered, if and only if no answer escapes; and the
loop has not been ended by an error if and only if none has. -/
theorem consumer_survives_iff {setting : Setting} {settings : WorkerSettings} :
    (∀ message actions finish outcome,
      Transition.run survivingStep actions
        ((handle (backend setting) setting.codec settings message).alone ()) = some finish →
      finish.programs () = some (.done outcome) →
      (Returns outcome ∧ EndsSafely finish.state.2 ↔ NoneEscapes finish.state.2)) ∧
    ∀ turns worker actions finish program,
      Transition.run survivingStep actions
        ((run (backend setting) setting.codec settings turns worker).alone ()) = some finish →
      finish.programs () = some program →
      ((∀ error, program ≠ .done (.error error)) ↔ NoneEscapes finish.state.2) := by
  have hNone : NoneEscapes [] := fun _ h => absurd h List.not_mem_nil
  have hStart : AcknowledgesConcluded () [] := fun _ _ h => absurd h List.not_mem_nil
  constructor
  · intro message actions finish outcome hRun hDone
    obtain ⟨hConcluded, -, hPost⟩ :=
      Safe.alone_run hStart (surviving_handle hNone settings message) hRun
    have hSurvives : Returns outcome ↔ NoneEscapes finish.state.2 := hPost outcome hDone
    rw [← hSurvives, and_iff_left_iff_imp]
    intro _
    by_cases hAcknowledged : ∃ id answer, ⟨.stream (.acknowledge id), answer⟩ ∈ finish.state.2
    · obtain ⟨id, answer, hMade⟩ := hAcknowledged
      exact (hConcluded id answer hMade).imp_right Or.inl
    · refine Or.inr (Or.inr fun id answer hMade => hAcknowledged ⟨id, answer, hMade⟩)
  · intro turns worker actions finish program hRun hProgram
    obtain ⟨-, hGuard, hPost⟩ := Safe.alone_run hStart (surviving_run hNone turns worker) hRun
    cases program with
    | done outcome =>
        have hEnds : outcome = .ok () ↔ NoneEscapes finish.state.2 := hPost outcome hProgram
        rw [← hEnds]
        cases outcome with
        | ok done => exact iff_of_true (fun error h => nomatch h) rfl
        | error error => exact iff_of_false (fun h => h error rfl) fun h => nomatch h
    | call request next =>
        refine iff_of_true (fun error h => nomatch h) ?_
        have goesOn := hGuard request next hProgram
        unfold GoesOn at goesOn
        split at goesOn
        · exact goesOn.1
        · exact goesOn

/-- The sample upload is delivered and looked up, and every status change raises an error. -/
def failingMarks (error : Failure) : (request : Call) → Except Failure (Response request)
  | .outside query => .ok (sampleAnswer [] query)
  | .stream .createGroup => .ok ()
  | .stream .heartbeat => .ok ()
  | .stream .readGroup => .ok [sampleEntry]
  | .stream (.autoClaim _) => .ok ("0-0", [])
  | .stream (.pending _) => .ok (1 : Nat)
  | .stream (.addDeadLetter _) => .ok ()
  | .stream (.acknowledge _) => .ok ()
  | .getDocument _ _ => .ok (some { sampleUpload.record with })
  | .markStatus _ _ _ _ => .error error
  | .upsertDocument _ _ _ => .ok ()
  | .begin _ => .ok ()
  | .selectPending _ _ => .ok []
  | .publish _ => .ok ()
  | .setPublished _ _ => .ok ()
  | .commit => .ok ()
  | .rollback => .ok ()

/-- What a program that is done has come to. -/
def outcomeOf {Result : Type} : Option (Task Result) → Option (Except Failure Result)
  | some (.done outcome) => some outcome
  | _ => none

theorem eq_of_outcomeOf {Result : Type} {program : Option (Task Result)}
    {outcome : Except Failure Result} (h : outcomeOf program = some outcome) :
    program = some (.done outcome) := by
  unfold outcomeOf at h
  split at h
  · cases h
    rfl
  · cases h

/-- While the database is down the message is left pending, and the loop goes on. -/
theorem consumer_survives_operational :
    (∃ finish, Transition.run survivingStep
        (List.replicate 3 (.advance () (failingMarks .operational)))
        ((handle (backend sampleSetting) sampleSetting.codec {} sampleEntry).alone ()) =
          some finish ∧
      Returns (.ok () : Except Failure Unit) ∧ EndsSafely finish.state.2) ∧
    ∃ finish, Transition.run survivingStep
        (List.replicate 14 (.advance () (failingMarks .operational)))
        ((run (backend sampleSetting) sampleSetting.codec {} 1 {}).alone ()) = some finish ∧
      ∀ error, finish.programs () ≠ some (.done (.error error)) := by
  have hHandled : (Transition.run survivingStep
      (List.replicate 3 (.advance () (failingMarks .operational)))
      ((handle (backend sampleSetting) sampleSetting.codec {} sampleEntry).alone ())).map
        (fun finish => (outcomeOf (finish.programs ()), decide (NoneEscapes finish.state.2))) =
      some (some (.ok ()), true) := by
    decide +kernel
  have hLoop : (Transition.run survivingStep
      (List.replicate 14 (.advance () (failingMarks .operational)))
      ((run (backend sampleSetting) sampleSetting.codec {} 1 {}).alone ())).map
        (fun finish => (outcomeOf (finish.programs ()), decide (NoneEscapes finish.state.2))) =
      some (some (.ok ()), true) := by
    decide +kernel
  obtain ⟨handled, hHandle, hFacts⟩ := Option.map_eq_some_iff.mp hHandled
  obtain ⟨looped, hRun, hLooped⟩ := Option.map_eq_some_iff.mp hLoop
  obtain ⟨hOutcome, hNone⟩ := Prod.mk.inj hFacts
  obtain ⟨hEnded, hNoneLooped⟩ := Prod.mk.inj hLooped
  refine ⟨⟨handled, hHandle, ?_⟩, looped, hRun, fun error hError => ?_⟩
  · exact (consumer_survives_iff.1 _ _ _ _ hHandle (eq_of_outcomeOf hOutcome)).mpr
      (of_decide_eq_true hNone)
  · exact (consumer_survives_iff.2 _ _ _ _ _ hRun hError).mpr (of_decide_eq_true hNoneLooped)
      error rfl

/-- A row that is gone is reported while processing, and again while recording that
failure, where nothing catches it: handling raises it, and the loop ends. -/
theorem consumer_survives_rowGone :
    (∃ finish, Transition.run survivingStep
        (List.replicate 4 (.advance () (failingMarks (.lookup "LookupError"))))
        ((handle (backend sampleSetting) sampleSetting.codec {} sampleEntry).alone ()) =
          some finish ∧
      finish.programs () = some (.done (.error (.lookup "LookupError"))) ∧
      ¬Returns (.error (.lookup "LookupError") : Except Failure Unit)) ∧
    ∃ finish, Transition.run survivingStep
        (List.replicate 14 (.advance () (failingMarks (.lookup "LookupError"))))
        ((run (backend sampleSetting) sampleSetting.codec {} 1 {}).alone ()) = some finish ∧
      finish.programs () = some (.done (.error (.lookup "LookupError"))) := by
  have hHandled : (Transition.run survivingStep
      (List.replicate 4 (.advance () (failingMarks (.lookup "LookupError"))))
      ((handle (backend sampleSetting) sampleSetting.codec {} sampleEntry).alone ())).map
        (fun finish => outcomeOf (finish.programs ())) =
      some (some (.error (.lookup "LookupError"))) := by
    decide +kernel
  have hLoop : (Transition.run survivingStep
      (List.replicate 14 (.advance () (failingMarks (.lookup "LookupError"))))
      ((run (backend sampleSetting) sampleSetting.codec {} 1 {}).alone ())).map
        (fun finish => outcomeOf (finish.programs ())) =
      some (some (.error (.lookup "LookupError"))) := by
    decide +kernel
  obtain ⟨handled, hHandle, hOutcome⟩ := Option.map_eq_some_iff.mp hHandled
  obtain ⟨looped, hRun, hEnded⟩ := Option.map_eq_some_iff.mp hLoop
  refine ⟨⟨handled, hHandle, eq_of_outcomeOf hOutcome, fun hReturns => ?_⟩, looped, hRun,
    eq_of_outcomeOf hEnded⟩
  exact absurd (returns_error.mp hReturns) (by decide)

end DocInsight.Delivery
