import DocInsight.Storage.Procedures
import DocInsight.Contracts.Encoding
import DocInsight.Worker.Service

/-! Stored output is effectively once, whatever workers, CLI runs and registrations write
concurrently, fail at or crash in. -/
namespace DocInsight.Storage

open DocInsight.Contracts DocInsight.Worker Interaction Interaction.Discipline Table

/-- What all processes share: the wire codec, the digest, derived identifiers and the
dimension of stored vectors. -/
structure Setting where
  codec : Codec
  sha256 : Bytes → String
  uuid5 : UUID → String → UUID
  dimension : Nat

/-- What an agent does: a worker handles a delivery, whichever and how often it was
delivered; a CLI run indexes a file; a caller upserts a document or registers an upload. -/
inductive Job where
  | handle (settings : WorkerSettings) (message : StreamMessage)
  | index (tenantId filename : String) (data : Bytes)
  | upsert (tenantId filename : String) (document : Document)
  | register (tenantId filename sha256 : String) (mediaType : MediaType) (sizeBytes : Nat)
      (objectKey : String)

namespace Setting

def backend (setting : Setting) : Backend Call Response :=
  Storage.backend setting.uuid5 setting.dimension setting.sha256

def procedure (setting : Setting) : Job → Procedure Unit
  | .handle settings message => handle setting.backend setting.codec settings message
  | .index tenantId filename data => Worker.index setting.backend filename data tenantId none
  | .upsert tenantId filename document => setting.backend.upsertDocument tenantId filename document
  | .register tenantId filename sha256 mediaType sizeBytes objectKey => do
      let _ ← registerUpload tenantId filename sha256 mediaType sizeBytes objectKey
      pure ()

/-- Upserts and status changes may commit; nobody stores objects. -/
def policy (setting : Setting) : Policy where
  uuid5 := setting.uuid5

/-- Empty tables, and agents that have not started. -/
def start (setting : Setting) (jobs : Nat → Job) :
    Pool Nat Server Call Response Failure Unit where
  state := {}
  programs agent := some (setting.procedure (jobs agent))

end Setting

section Worker
variable {setting : Setting} {agent : Nat} {known : Server → Prop} {server : Server}
  {event : WorkerEvent}

/-- A quiet call keeps what an idle agent knows. -/
theorem safe_idle {policy : Policy} {request : Call} (hQuiet : Quiet request)
    (durable : Durable agent known) (idle : Idle agent known server) :
    (serialization policy).Safe agent (perform request) (fun _ now => Idle agent known now)
      server :=
  safe_quiet hQuiet fun _ hRely _ => idle.undisturbed durable hRely

/-- What is known of the document of an event that a worker processes. -/
abbrev Looked (event : WorkerEvent) : Server → Prop :=
  Located event.tenantId event.sha256 event.documentId

/-- That its output is stored as well. -/
abbrev Indexed (event : WorkerEvent) (server : Server) : Prop :=
  Looked event server ∧ OutputStored server.history (event.tenantId, event.sha256)

theorem lasting_looked (event : WorkerEvent) : Lasting (Looked event) :=
  lasting_located event.tenantId event.sha256 event.documentId

theorem lasting_indexed (event : WorkerEvent) : Lasting (Indexed event) :=
  (lasting_looked event).and (lasting_outputStored (event.tenantId, event.sha256))

theorem Idle.of_indexed (idle : Idle agent (Indexed event) server) :
    Idle agent (Looked event) server :=
  ⟨idle.writes, idle.known.1⟩

/-- An upsert by a worker, as its backend runs it. -/
theorem safe_backend_upsert (lasting : Lasting known) (idle : Idle agent known server)
    (tenantId filename : String) (document : Document) :
    (serialization setting.policy).Safe agent
      (setting.backend.upsertDocument tenantId filename document)
      (fun outcome now => Idle agent known now ∧
        (outcome = .ok () → OutputStored now.history (tenantId, document.sha256))) server := by
  apply Safe.bind
  have hUpsert := @safe_upsertDocument setting.policy agent known server lasting idle
    (fun _ _ => trivial) setting.dimension tenantId filename document
  apply hUpsert.mono
  rintro outcome now ⟨hIdle, hStored⟩
  cases outcome with
  | error error => exact ⟨hIdle, fun h => by cases h⟩
  | ok stored => exact ⟨hIdle, fun _ => hStored stored rfl⟩

theorem safe_readObject (durable : Durable agent known) (idle : Idle agent known server)
    (reads : Nat) (data : Bytes) :
    (serialization setting.policy).Safe agent (readObject setting.backend event reads data)
      (fun _ now => Idle agent known now) server := by
  induction reads generalizing server data with
  | zero => exact idle
  | succ reads ih =>
      apply Safe.bind
      apply (safe_idle (show Quiet (.outside .readObject) from trivial) durable idle).mono
      intro answer now hNow
      cases answer with
      | error error => exact hNow
      | ok more =>
          simp only
          split_ifs
          · exact hNow
          · exact hNow
          · exact ih hNow _

/-- What is downloaded has the digest of the event. -/
theorem safe_download (durable : Durable agent known) (idle : Idle agent known server) :
    (serialization setting.policy).Safe agent (download setting.backend event)
      (fun outcome now => Idle agent known now ∧
        ∀ data, outcome = .ok data → setting.sha256 data = event.sha256) server := by
  apply Safe.bind
  apply Safe.tryCatch
  apply Safe.bind
  apply (safe_idle (show Quiet (.outside (.openObject event.objectKey)) from trivial) durable
    idle).mono
  intro answer now hNow
  cases answer with
  | error error => exact ⟨hNow, fun data h => by cases h⟩
  | ok _ =>
      apply (safe_readObject durable hNow (event.sizeBytes + 1) []).mono
      intro outcome later hLater
      cases outcome with
      | error error => exact ⟨hLater, fun data h => by cases h⟩
      | ok data =>
          simp only
          split_ifs with hMismatch
          · exact ⟨hLater, fun other h => by cases h⟩
          · obtain ⟨-, hDigest⟩ := not_or.mp hMismatch
            cases mediaType (data.take 8) with
            | error error => exact ⟨hLater, fun other h => by cases h⟩
            | ok kind =>
                simp only
                split_ifs
                · exact ⟨hLater, fun other h => by cases h⟩
                · refine ⟨hLater, fun other h => ?_⟩
                  cases h
                  exact not_not.mp hDigest

/-- Indexing keeps what is known, and stores the output of the bytes it is given. -/
theorem safe_index (lasting : Lasting known) (idle : Idle agent known server) (path : String)
    (data : Bytes) (tenantId : String) (filename : Option String) :
    (serialization setting.policy).Safe agent (index setting.backend path data tenantId filename)
      (fun outcome now => Idle agent known now ∧
        (outcome = .ok () → OutputStored now.history (tenantId, setting.sha256 data)))
      server := by
  have durable := lasting.durable agent
  unfold index
  cases mediaType data with
  | error error => exact ⟨idle, fun h => by cases h⟩
  | ok kind =>
      apply Safe.bind
      apply (safe_idle (show Quiet (.outside (.compute data)) from trivial) durable idle).mono
      intro answer now hNow
      cases answer with
      | error error => exact ⟨hNow, fun h => by cases h⟩
      | ok output => exact safe_backend_upsert lasting hNow tenantId (storedName path filename) _

/-- A worker marks a document processed only after its own upsert has committed. -/
theorem safe_process (idle : Idle agent (Looked event) server) (document : StoredDocument) :
    (serialization setting.policy).Safe agent (process setting.backend event document)
      (fun _ now => Idle agent (Looked event) now) server := by
  have lasting := lasting_looked event
  have durable := lasting.durable agent
  have hRemove {reached : Server} (hIdle : Idle agent (Looked event) reached) :
      (serialization setting.policy).Safe agent (perform (.outside .removeDirectory))
        (fun _ now => Idle agent (Looked event) now) reached :=
    safe_idle (show Quiet (.outside .removeDirectory) from trivial) durable hIdle
  apply Safe.bind
  have hProcessing := @safe_markStatus setting.policy agent _ server lasting idle event.tenantId
    event.documentId .processing none trivial (fun h => by cases h)
  apply hProcessing.mono
  intro outcome first hFirst
  cases outcome with
  | error error => exact hFirst
  | ok _ =>
      apply Safe.bind
      apply (safe_idle (show Quiet (.outside .makeDirectory) from trivial) durable hFirst).mono
      intro outcome second hSecond
      cases outcome with
      | error error => exact hSecond
      | ok _ =>
          apply Safe.bind
          apply Safe.tryFinally
          apply Safe.bind
          apply (safe_download durable hSecond).mono
          rintro outcome third ⟨hThird, hDigest⟩
          cases outcome with
          | error error =>
              apply (hRemove hThird).mono
              intro cleaned ended hEnded
              cases cleaned with
              | ok _ => exact hEnded
              | error error => exact hEnded
          | ok data =>
              apply (safe_index lasting hThird "original" data event.tenantId
                (some document.filename)).mono
              rintro outcome fourth ⟨hFourth, hStored⟩
              cases outcome with
              | error error =>
                  apply (hRemove hFourth).mono
                  intro cleaned ended hEnded
                  cases cleaned with
                  | ok _ => exact hEnded
                  | error error => exact hEnded
              | ok _ =>
                  have hIndexed : Idle agent (Indexed event) fourth := by
                    refine ⟨hFourth.writes, hFourth.known, ?_⟩
                    rw [← hDigest data rfl]
                    exact hStored rfl
                  apply (safe_idle (show Quiet (.outside .removeDirectory) from trivial)
                    ((lasting_indexed event).durable agent) hIndexed).mono
                  intro cleaned fifth hFifth
                  cases cleaned with
                  | error error => exact hFifth.of_indexed
                  | ok _ =>
                      have hProcessed := @safe_markStatus setting.policy agent _ fifth
                        (lasting_indexed event) hFifth event.tenantId event.documentId .processed
                        none trivial (fun _ => ⟨event.sha256, fun _ hKnown => hKnown⟩)
                      exact hProcessed.mono fun _ _ hEnded => hEnded.of_indexed

/-- Writing a dead letter and acknowledging it leave the tables alone. -/
theorem safe_deadLetter (durable : Durable agent known) (idle : Idle agent known server)
    (message : StreamMessage) (error : String) (attempts : Nat) :
    (serialization setting.policy).Safe agent (deadLetter setting.backend message error attempts)
      (fun _ now => Idle agent known now) server := by
  apply Safe.bind
  apply (safe_idle (show Quiet (.stream (.addDeadLetter
    (deadLetterFields message.fields error attempts))) from trivial) durable idle).mono
  intro outcome now hNow
  cases outcome with
  | error error => exact hNow
  | ok _ =>
      exact safe_idle (show Quiet (.stream (.acknowledge message.id)) from trivial) durable hNow

theorem safe_fail (idle : Idle agent (Looked event) server) (message : StreamMessage)
    (error : String) (attempts : Nat) :
    (serialization setting.policy).Safe agent (fail setting.backend message event error attempts)
      (fun _ now => Idle agent (Looked event) now) server := by
  have lasting := lasting_looked event
  apply Safe.bind
  have hFailed := @safe_markStatus setting.policy agent _ server lasting idle event.tenantId
    event.documentId .failed (some error) trivial (fun h => by cases h)
  apply hFailed.mono
  intro outcome now hNow
  cases outcome with
  | error error => exact hNow
  | ok _ => exact safe_deadLetter (lasting.durable agent) hNow message error attempts

theorem safe_settle (idle : Idle agent (Looked event) server) (message : StreamMessage)
    (attempts : Nat) (outcome : Except Failure Unit) :
    (serialization setting.policy).Safe agent
      (settle setting.backend message event attempts outcome)
      (fun _ now => Idle agent (Looked event) now) server := by
  cases outcome with
  | ok _ =>
      exact safe_idle (show Quiet (.stream (.acknowledge message.id)) from trivial)
        ((lasting_looked event).durable agent) idle
  | error error =>
      simp only [settle]
      split_ifs
      · exact idle
      · exact safe_fail idle message _ attempts

/-- A worker that has found the document of its event processes it, fails it or skips it. -/
theorem safe_handleFound (idle : Idle agent (Looked event) server) (settings : WorkerSettings)
    (message : StreamMessage) (attempts : Nat) (document : StoredDocument) :
    (serialization setting.policy).Safe agent
      (handleLooked setting.backend settings message event attempts (.ok document))
      (fun _ now => Idle agent (Looked event) now) server := by
  simp only [handleLooked]
  split_ifs
  · exact safe_idle (show Quiet (.stream (.acknowledge message.id)) from trivial)
      ((lasting_looked event).durable agent) idle
  · exact safe_fail idle message _ attempts
  · apply Safe.andThen
    apply (safe_process idle document).mono
    intro outcome now hNow
    exact safe_settle hNow message attempts outcome

/-- What an agent that is outside of its transactions is known of, whatever it does. -/
abbrev Anywhere (_ : Server) : Prop := True

theorem durable_anywhere (agent : Nat) : Durable agent Anywhere :=
  ⟨fun _ _ _ _ => trivial, fun _ _ _ _ _ _ => trivial⟩

theorem lasting_anywhere : Lasting Anywhere := fun _ _ _ _ _ => trivial

/-- Only a document that the event describes is processed. -/
theorem safe_handleValid (idle : Idle agent Anywhere server) (settings : WorkerSettings)
    (message : StreamMessage) (event : WorkerEvent) (attempts : Nat) :
    (serialization setting.policy).Safe agent
      (handleValid setting.backend settings message event attempts)
      (fun _ now => Idle agent Anywhere now) server := by
  have durable := durable_anywhere agent
  have hUnknown {now : Server} (hIdle : Idle agent Anywhere now) (error : Failure) :
      (serialization setting.policy).Safe agent
        (handleLooked setting.backend settings message event attempts (.error error))
        (fun _ now => Idle agent Anywhere now) now := by
    simp only [handleLooked]
    split_ifs
    · exact hIdle
    · exact safe_deadLetter durable hIdle message _ attempts
    · exact hIdle
  apply Safe.andThen
  apply Safe.bind
  apply (safe_getDocument durable idle event.tenantId event.documentId).mono
  rintro outcome now ⟨hIdle, hLocated⟩
  cases outcome with
  | error error => exact hUnknown hIdle error
  | ok found =>
      cases found with
      | none => exact hUnknown hIdle _
      | some document =>
          simp only
          split_ifs with hDescribes
          · have hLooked : Idle agent (Looked event) now := by
              refine ⟨hIdle.writes, ?_⟩
              have hFound := hLocated document rfl
              rw [hDescribes.1] at hFound
              exact hFound
            apply (safe_handleFound hLooked settings message attempts document).mono
            intro outcome later hLater
            exact ⟨hLater.writes, trivial⟩
          · exact hUnknown hIdle _

/-- A worker handles any delivery without spoiling stored output. -/
theorem safe_handle (idle : Idle agent Anywhere server) (settings : WorkerSettings)
    (message : StreamMessage) :
    (serialization setting.policy).Safe agent
      (handle setting.backend setting.codec settings message)
      (fun _ now => Idle agent Anywhere now) server := by
  have durable := durable_anywhere agent
  apply Safe.bind
  apply (safe_idle (show Quiet (.stream (.pending message.id)) from trivial) durable idle).mono
  intro outcome now hNow
  cases outcome with
  | error error => exact hNow
  | ok attempts =>
      simp only
      split_ifs
      · exact hNow
      · cases WorkerEvent.modelValidate setting.codec message.fields with
        | none => exact safe_deadLetter durable hNow message _ attempts
        | some event =>
            apply Safe.tryCatch
            apply (safe_handleValid hNow settings message event attempts).mono
            intro outcome later hLater
            cases outcome with
            | ok _ => exact hLater
            | error error =>
                simp only
                split_ifs
                · exact hLater
                · exact hLater

/-- Every job keeps to the policy, and ends outside of its transactions. -/
theorem safe_procedure (idle : Idle agent Anywhere server) (job : Job) :
    (serialization setting.policy).Safe agent (setting.procedure job)
      (fun _ now => Idle agent Anywhere now) server := by
  cases job with
  | handle settings message => exact safe_handle idle settings message
  | index tenantId filename data =>
      apply (safe_index lasting_anywhere idle filename data tenantId none).mono
      exact fun _ _ h => h.1
  | upsert tenantId filename document =>
      apply (safe_backend_upsert lasting_anywhere idle tenantId filename document).mono
      exact fun _ _ h => h.1
  | register tenantId filename sha256 mediaType sizeBytes objectKey =>
      apply Safe.bind
      have hRegister := @safe_registerUpload setting.policy agent _ server
        (durable_anywhere agent) idle tenantId filename sha256 mediaType sizeBytes objectKey
        (fun _ _ _ => trivial) (fun h => h.elim)
      apply hRegister.mono
      intro outcome now hNow
      cases outcome with
      | error error =>
          obtain ⟨_, _, hNothing | ⟨hNone, _⟩⟩ := hNow
          · exact hNothing
          · exact ⟨hNone, trivial⟩
      | ok document => exact ⟨hNow.1, trivial⟩

end Worker

/-- One row for each content; derived rows are nothing, or the output of one upsert with
its metadata; and what is processed has such output. -/
structure EffectivelyOnce (uuid5 : UUID → String → UUID) (server : Server) : Prop where
  single : Keyed DocumentRow.contentKey server.committed.documents
  whole : ∀ row ∈ server.committed.documents,
    chunksOf server.committed row = [] ∧ entitiesOf server.committed row = [] ∨
      ∃ record, Upserted uuid5 server.history record ∧
        HasOutput uuid5 server.committed row record
  processed : ∀ row ∈ server.committed.documents, row.status = .processed →
    ∃ record, Upserted uuid5 server.history record ∧ HasOutput uuid5 server.committed row record

/-- The row of a content stays the same document. -/
def SameDocuments (before after : Server) : Prop :=
  ∀ row ∈ before.committed.documents, ∃ later ∈ after.committed.documents,
    later.contentKey = row.contentKey ∧ later.id = row.id ∧ later.createdAt = row.createdAt

theorem effectivelyOnce_of_serialized {policy : Policy} {server : Server}
    (serialized : Serialized policy server) : EffectivelyOnce policy.uuid5 server := by
  have hState {row : DocumentRow} (hRow : row ∈ server.committed.documents) :
      OutputState policy.uuid5 server.history row := by
    rw [serialized.replayed] at hRow
    exact serialized.legal.outputState hRow
  refine ⟨?_, fun row hRow => ?_, fun row hRow hProcessed => ?_⟩
  · rw [serialized.replayed]
    exact serialized.legal.unique.contents
  · cases hState hRow with
    | inl none =>
        rw [serialized.replayed]
        exact Or.inl ⟨none.chunks, none.entities⟩
    | inr output =>
        rw [serialized.replayed]
        exact Or.inr output
  · cases hState hRow with
    | inl none => exact absurd hProcessed none.status
    | inr output =>
        rw [serialized.replayed]
        exact output

/-- What every agent leaves in the end. -/
abbrev Done (agent : Nat) (_ : Except Failure Unit) (server : Server) : Prop :=
  Idle agent Anywhere server

theorem Done.undisturbed (agent : Nat) (outcome : Except Failure Unit) (server now : Server)
    (h : Undisturbed agent server now) (hDone : Done agent outcome server) :
    Done agent outcome now :=
  Idle.undisturbed (durable_anywhere agent) hDone h

theorem start_safe (setting : Setting) (jobs : Nat → Job) :
    (serialization setting.policy).PoolSafe Done (setting.start jobs) := by
  refine ⟨serialized_empty setting.policy, fun agent program hProgram => ?_⟩
  cases hProgram
  exact safe_procedure ⟨rfl, trivial⟩ (jobs agent)

/-- However the statements of any number of writers interleave, and whichever of them fail
or crash, committed output is that of whole upserts, and later steps keep its documents. -/
theorem storedOutput_effectivelyOnce (setting : Setting) (jobs : Nat → Job)
    {moves rest : List (Action Nat Choice Empty)}
    {reached later : Pool Nat Server Call Response Failure Unit}
    (hReached : Transition.run (Pool.step environment) moves (setting.start jobs) = some reached)
    (hLater : Transition.run (Pool.step environment) rest reached = some later) :
    EffectivelyOnce setting.uuid5 reached.state ∧ SameDocuments reached.state later.state := by
  have hSafe := (steady_run Done.undisturbed (start_safe setting jobs) hReached).1
  have hSteady := (steady_run Done.undisturbed hSafe hLater).2
  refine ⟨effectivelyOnce_of_serialized hSafe.1, fun row hRow => ?_⟩
  obtain ⟨found, hFound, hSame⟩ := hSteady.persists row hRow
  exact ⟨found, hFound, hSame.contentKey, hSame.id, hSame.createdAt⟩

/-! An upload that is registered, indexed by a run that fails in the middle, and indexed
again. -/

def sampleOutput : Output where
  pages := []
  chunks := [{ text := [], page := 1, ord := 0, charStart := 0, charEnd := 0, tokenCount := 0,
               embedding := some [.finite 1] }]
  entities := []
  embedModel := some "e5"
  embedDimension := some 1

def plain : Choice where
  answer
    | .stopping => false
    | .clock => (0 : ℚ)
    | .wait => ()
    | .makeDirectory => ()
    | .removeDirectory => ()
    | .openObject _ => ()
    | .readObject => []
    | .compute _ => sampleOutput
    | .traceparent => none
  reply
    | .createGroup => ()
    | .heartbeat => ()
    | .readGroup => []
    | .autoClaim _ => ("0-0", [])
    | .pending _ => (0 : Nat)
    | .addDeadLetter _ => ()
    | .acknowledge _ => ()
  identifier := ⟨1⟩

def broken : Choice := { plain with failure := some .operational }

def pdfBytes : Bytes := [0x25, 0x50, 0x44, 0x46, 0x2D]

/-- The digest of these bytes. -/
def pdfDigest : String := "38523c087796e5d5dd1cf9bad1fb026781a838dd9dd2cf8af58b9f6502a46778"

def sampleSetting : Setting where
  codec := libraryCodec
  sha256 _ := pdfDigest
  uuid5 id _ := id
  dimension := 1

def sampleJobs : Nat → Job
  | 0 => .register "acme" "report.pdf" pdfDigest .pdf 5 ("acme/" ++ pdfDigest)
  | _ => .index "acme" "report.pdf" pdfBytes

/-- The registration commits; the first run has replaced the row when its insert fails. -/
def failedMoves : List (Action Nat Choice Empty) :=
  List.replicate 8 (.advance 0 plain) ++ List.replicate 6 (.advance 1 plain) ++
    [.advance 1 broken, .advance 1 plain]

/-- The second run replaces the row and its chunks and commits. -/
def indexedMoves : List (Action Nat Choice Empty) := List.replicate 9 (.advance 2 plain)

theorem storedOutput_effectivelyOnce_retried :
    ∃ reached later,
      Transition.run (Pool.step environment) failedMoves (sampleSetting.start sampleJobs) =
        some reached ∧
      Transition.run (Pool.step environment) indexedMoves reached = some later ∧
      reached.state.committed.chunks.length = 0 ∧ later.state.committed.chunks.length = 1 ∧
      EffectivelyOnce sampleSetting.uuid5 reached.state ∧
      SameDocuments reached.state later.state := by
  have hRuns : (Transition.run (Pool.step environment) failedMoves
      (sampleSetting.start sampleJobs)).bind (fun reached =>
        (Transition.run (Pool.step environment) indexedMoves reached).map fun later =>
          (reached.state.committed.chunks.length, later.state.committed.chunks.length)) =
      some (0, 1) := by decide +kernel
  obtain ⟨reached, hReached, hRest⟩ := Option.bind_eq_some_iff.mp hRuns
  obtain ⟨later, hLater, hLengths⟩ := Option.map_eq_some_iff.mp hRest
  obtain ⟨hBefore, hAfter⟩ := Prod.mk.injEq .. ▸ hLengths
  exact ⟨reached, later, hReached, hLater, hBefore, hAfter,
    storedOutput_effectivelyOnce sampleSetting sampleJobs hReached hLater⟩

end DocInsight.Storage
