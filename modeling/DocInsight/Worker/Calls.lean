import DocInsight.Worker.Service

/-! Which calls the handling of messages makes, from those that its backend makes. -/
namespace DocInsight.Worker

open DocInsight.Contracts Interaction

variable {Call : Type} {Response : Call → Type} {allowed : Call → Prop}

/-- What settling and the providers ask of a backend makes only such calls. -/
structure Backend.Settles (backend : Backend Call Response) (allowed : Call → Prop) : Prop where
  outside : ∀ query, (backend.outside query).Makes allowed
  addDeadLetter : ∀ fields, (backend.stream (.addDeadLetter fields)).Makes allowed
  acknowledge : ∀ id, (backend.stream (.acknowledge id)).Makes allowed
  markStatus : ∀ tenantId id status error, status ≠ .processing →
    (backend.markStatus tenantId id status error).Makes allowed
  upsertDocument : ∀ tenantId filename document,
    (backend.upsertDocument tenantId filename document).Makes allowed

/-- So does all that handling asks of it. -/
structure Backend.Handles (backend : Backend Call Response) (allowed : Call → Prop) : Prop
    extends Backend.Settles backend allowed where
  heartbeat : (backend.stream .heartbeat).Makes allowed
  pending : ∀ id, (backend.stream (.pending id)).Makes allowed
  getDocument : ∀ tenantId id, (backend.getDocument tenantId id).Makes allowed
  markProcessing : ∀ tenantId id error,
    (backend.markStatus tenantId id .processing error).Makes allowed

namespace Backend

section Settles
variable {backend : Backend Call Response} (settles : backend.Settles allowed)
include settles

theorem Settles.deadLetter (message : StreamMessage) (error : String) (attempts : Nat) :
    (deadLetter backend message error attempts).Makes allowed :=
  (settles.addDeadLetter _).bind fun _ => settles.acknowledge message.id

theorem Settles.fail (message : StreamMessage) (event : WorkerEvent) (error : String)
    (attempts : Nat) : (fail backend message event error attempts).Makes allowed :=
  (settles.markStatus _ _ .failed _ nofun).bind fun _ =>
    settles.deadLetter message error attempts

theorem Settles.settle (message : StreamMessage) (event : WorkerEvent) (attempts : Nat)
    (outcome : Except Failure Unit) :
    (settle backend message event attempts outcome).Makes allowed := by
  cases outcome with
  | ok done => exact settles.acknowledge message.id
  | error error =>
      simp only [Worker.settle]
      split_ifs
      · trivial
      · exact settles.fail message event _ attempts

theorem Settles.readObject (event : WorkerEvent) (reads : Nat) (data : Bytes) :
    (readObject backend event reads data).Makes allowed := by
  induction reads generalizing data with
  | zero => trivial
  | succ reads ih =>
      apply (settles.outside .readObject).bind
      intro more
      split_ifs
      · trivial
      · trivial
      · exact ih _

theorem Settles.download (event : WorkerEvent) : (download backend event).Makes allowed := by
  apply Program.Makes.bind
  · apply Program.Makes.tryCatch
    · exact (settles.outside _).bind fun _ => settles.readObject event _ []
    · exact fun _ => trivial
  · intro data
    split_ifs
    · trivial
    · split
      · trivial
      · split_ifs
        · trivial
        · trivial

theorem Settles.index (path : String) (data : Bytes) (tenantId : String)
    (filename : Option String) : (index backend path data tenantId filename).Makes allowed := by
  unfold Worker.index
  split
  · trivial
  · exact (settles.outside _).bind fun _ => settles.upsertDocument _ _ _

/-- Fetching, indexing and cleaning up. -/
theorem Settles.indexed (event : WorkerEvent) (document : StoredDocument) :
    (Program.tryFinally
      (do let data ← Worker.download backend event
          Worker.index backend "original" data event.tenantId (some document.filename))
      (backend.outside .removeDirectory)).Makes allowed := by
  apply Program.Makes.tryFinally
  · exact (settles.download event).bind fun data =>
      settles.index "original" data event.tenantId (some document.filename)
  · exact settles.outside _

/-- What follows a lookup that found no document. -/
theorem Settles.lookedError (settings : WorkerSettings) (message : StreamMessage)
    (event : WorkerEvent) (attempts : Nat) (error : Failure) :
    (handleLooked backend settings message event attempts (.error error)).Makes allowed := by
  simp only [handleLooked]
  split_ifs
  · trivial
  · exact settles.deadLetter message _ attempts
  · trivial

end Settles

section Handles
variable {backend : Backend Call Response} (handles : backend.Handles allowed)
include handles

theorem Handles.lookup (event : WorkerEvent) : (lookup backend event).Makes allowed := by
  apply (handles.getDocument _ _).bind
  intro found
  split
  · trivial
  · split_ifs
    · trivial
    · trivial

theorem Handles.process (event : WorkerEvent) (document : StoredDocument) :
    (process backend event document).Makes allowed := by
  apply (handles.markProcessing _ _ _).bind
  intro _
  apply (handles.outside _).bind
  intro _
  exact (handles.indexed event document).bind fun _ => handles.markStatus _ _ .processed _ nofun

theorem Handles.handleLooked (settings : WorkerSettings) (message : StreamMessage)
    (event : WorkerEvent) (attempts : Nat) (found : Except Failure StoredDocument) :
    (handleLooked backend settings message event attempts found).Makes allowed := by
  cases found with
  | error error => exact handles.lookedError settings message event attempts error
  | ok document =>
      simp only [Worker.handleLooked]
      split_ifs
      · exact handles.acknowledge message.id
      · exact handles.fail message event _ attempts
      · exact (handles.process event document).andThen fun outcome =>
          handles.settle message event attempts outcome

theorem Handles.handle (codec : Codec) (settings : WorkerSettings) (message : StreamMessage) :
    (handle backend codec settings message).Makes allowed := by
  apply (handles.pending message.id).bind
  intro attempts
  split_ifs
  · trivial
  · split
    · exact handles.deadLetter message _ attempts
    · apply Program.Makes.tryCatch
      · exact (handles.lookup _).andThen fun found =>
          handles.handleLooked settings message _ attempts found
      · intro error
        split_ifs
        · trivial
        · trivial

/-- Every call that the handling of a batch makes is such a call. -/
theorem Handles.handleAll (codec : Codec) (settings : WorkerSettings)
    (messages : List StreamMessage) :
    (handleAll backend codec settings messages).Makes allowed := by
  induction messages with
  | nil => trivial
  | cons message rest ih =>
      apply (handles.outside .stopping).bind
      intro stopping
      split_ifs
      · trivial
      · apply handles.heartbeat.bind
        intro _
        exact (handles.handle codec settings message).bind fun _ => ih

end Handles

end Backend

end DocInsight.Worker
