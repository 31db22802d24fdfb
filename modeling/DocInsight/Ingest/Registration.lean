import DocInsight.Ingest.Upload
import DocInsight.Storage.Procedures

/-! Registration is one document and one event, and a document is committed only once its
bytes are stored, however many calls register what at the same time. -/
namespace DocInsight.Ingest

open DocInsight.Contracts DocInsight.Worker DocInsight.Storage Interaction Interaction.Discipline
open Table

/-- A call of `register`: a tenant with an upload that was read from a request. -/
structure UploadCall (library : MultipartLibrary) where
  tenant : String
  limit : Nat
  contentType : Bytes
  blocks : List Bytes
  upload : UploadBody
  read_ok : UploadBody.read library limit contentType blocks = .ok upload

variable {library : MultipartLibrary} {hexdigest : Bytes → String}
  {calls : Nat → UploadCall library}

namespace UploadCall

/-- The bytes that the request uploads. -/
def content (call : UploadCall library) : Bytes := call.upload.target

def digest (hexdigest : Bytes → String) (call : UploadCall library) : String :=
  hexdigest call.upload.digest

def key (hexdigest : Bytes → String) (call : UploadCall library) : String :=
  contentObjectKey call.tenant (call.digest hexdigest)

end UploadCall

/-- The record of an upload. -/
structure Records (hexdigest : Bytes → String) (call : UploadCall library) (record : DocumentRow) :
    Prop where
  tenantId : record.tenantId = call.tenant
  sha256 : record.sha256 = call.digest hexdigest
  mediaType : mediaType call.upload.leading = .ok record.mediaType
  sizeBytes : record.sizeBytes = some call.upload.size
  objectKey : record.objectKey = some (call.key hexdigest)

/-- Calls commit the registrations of their uploads, after they have stored their objects. -/
def registrations (hexdigest : Bytes → String) (calls : Nat → UploadCall library) : Policy where
  uuid5 id _ := id
  permits operation := ∃ call record event,
    operation = .register record event ∧ Records hexdigest (calls call) record
  keeps key data := ∃ call, key = (calls call).key hexdigest ∧
    data = (calls call).upload.target.take (calls call).upload.size
  objectsFirst := True

/-- An agent that has committed nothing. -/
def Silent (agent : Nat) (server : Server) : Prop :=
  ∀ commit ∈ server.history, commit.agent ≠ agent

theorem durable_silent (agent : Nat) : Durable agent (Silent agent) where
  undisturbed server next hNext hSilent := by
    obtain ⟨recent, hHistory, hAgents⟩ := hNext.history
    intro commit hCommit
    rw [hHistory] at hCommit
    rcases List.mem_append.mp hCommit with hRecent | hOld
    · exact hAgents commit hRecent
    · exact hSilent commit hOld
  same server next _ hHistory _ hSilent := by
    intro commit hCommit
    rw [hHistory] at hCommit
    exact hSilent commit hCommit

theorem durable_stored (agent : Nat) (key : String) :
    Durable agent fun server => (server.objects key).isSome where
  undisturbed _ _ hNext hStored := hNext.objects key hStored
  same _ _ _ _ hObjects hStored := by
    rw [hObjects]
    exact hStored

/-- An agent that has committed nothing, unless the answer was lost: then its document with
the event. -/
def Unanswered (hexdigest : Bytes → String) (calls : Nat → UploadCall library) (agent : Nat)
    (server : Server) : Prop :=
  ∀ commit ∈ server.history, commit.agent = agent → commit.answered = false ∧
    ∃ record event, Records hexdigest (calls agent) record ∧ Announces event record ∧
      commit.writes = [.insertDocument record, .insertOutbox (outboxRow event)]

/-- What a call leaves: its content under the identifier that it returns, or nothing that it
was told of. -/
def Registered (hexdigest : Bytes → String) (calls : Nat → UploadCall library) (agent : Nat) :
    Except Failure Receipt → Server → Prop
  | .ok receipt, server =>
      Located (calls agent).tenant ((calls agent).digest hexdigest) receipt.documentId server
  | .error _, server => Unanswered hexdigest calls agent server

theorem Silent.unanswered {agent : Nat} {server : Server} (silent : Silent agent server) :
    Unanswered hexdigest calls agent server :=
  fun commit hCommit hAgent => absurd hAgent (silent commit hCommit)

theorem Registered.undisturbed (agent : Nat) (outcome : Except Failure Receipt)
    (server now : Server) (h : Undisturbed agent server now)
    (hRegistered : Registered hexdigest calls agent outcome server) :
    Registered hexdigest calls agent outcome now := by
  cases outcome with
  | ok receipt => exact Located.persists hRegistered h.persists
  | error error =>
      obtain ⟨recent, hHistory, hAgents⟩ := h.history
      intro commit hCommit hAgent
      rw [hHistory] at hCommit
      rcases List.mem_append.mp hCommit with hRecent | hOld
      · exact absurd hAgent (hAgents commit hRecent)
      · exact hRegistered commit hOld hAgent

section Safety
variable {agent : Nat} {server : Server}

/-- A call stores its own object, and knows that it is there when the put returns. -/
theorem safe_putObject (idle : Idle agent (Silent agent) server) :
    (serialization (registrations hexdigest calls)).Safe agent
      (perform (.putObject ((calls agent).key hexdigest) (calls agent).upload.target
        (calls agent).upload.size))
      (fun outcome now => match outcome with
        | .ok _ => Idle agent (fun server => Silent agent server ∧
            (server.objects ((calls agent).key hexdigest)).isSome) now
        | .error _ => Idle agent (Silent agent) now) server := by
  apply Safe.perform
  intro now hRely _
  have hNow := idle.undisturbed (durable_silent agent) hRely
  refine ⟨fun _ => ⟨agent, rfl, rfl⟩, fun choice answer after hPerform _ => ?_⟩
  have hStep : now.perform agent (.putObject ((calls agent).key hexdigest)
    (calls agent).upload.target (calls agent).upload.size) choice = some (answer, after) := hPerform
  cases hFailure : choice.failure with
  | some error =>
      simp only [Server.perform, hFailure] at hStep
      cases hStep
      refine ⟨?_, ?_⟩
      · split_ifs <;> exact hNow.writes
      · split_ifs <;> exact hNow.known
  | none =>
      simp only [Server.perform, hFailure] at hStep
      split_ifs at hStep
      · cases hStep
        exact hNow
      · cases hStep
        refine ⟨hNow.writes, hNow.known, ?_⟩
        simp [Server.putObject]

/-- A call keeps to the policy, and leaves its document or nothing. -/
theorem safe_register (idle : Idle agent (Silent agent) server) :
    (serialization (registrations hexdigest calls)).Safe agent
      (register hexdigest (calls agent).tenant (calls agent).upload)
      (Registered hexdigest calls agent) server := by
  unfold register
  cases hKind : mediaType (calls agent).upload.leading with
  | error error => exact idle.known.unanswered
  | ok kind =>
      apply Safe.bind
      apply (safe_findBySha256 (durable_silent agent) idle (calls agent).tenant
        ((calls agent).digest hexdigest)).mono
      rintro outcome now ⟨hIdle, hLocated⟩
      cases outcome with
      | error error => exact hIdle.known.unanswered
      | ok previous =>
          cases previous with
          | some previous => exact hLocated previous rfl
          | none =>
              apply Safe.bind
              apply (safe_putObject hIdle).mono
              intro outcome later hLater
              cases outcome with
              | error error => exact hLater.known.unanswered
              | ok _ =>
                  apply Safe.bind
                  have hRegister := @safe_registerUpload (registrations hexdigest calls) agent _ later
                    ((durable_silent agent).and (durable_stored agent ((calls agent).key hexdigest)))
                    hLater (calls agent).tenant (calls agent).upload.filename
                    ((calls agent).digest hexdigest) kind (calls agent).upload.size
                    ((calls agent).key hexdigest)
                    (fun _ _ _ => ⟨agent, _, _, rfl, rfl, rfl, hKind, rfl, rfl⟩)
                    (fun _ _ hKnown => hKnown.2)
                  apply hRegister.mono
                  intro outcome ended hEnded
                  cases outcome with
                  | ok record => exact hEnded.2
                  | error error =>
                      obtain ⟨id, createdAt, hNothing | ⟨_, event, before, announces, hKnown,
                        hHistory⟩⟩ := hEnded
                      · exact hNothing.known.1.unanswered
                      · intro commit hCommit hAgent
                        rw [hHistory] at hCommit
                        rcases List.mem_cons.mp hCommit with rfl | hOld
                        · exact ⟨rfl, _, event, ⟨rfl, rfl, hKind, rfl, rfl⟩, announces, rfl⟩
                        · exact absurd hAgent (hKnown.1 commit hOld)

end Safety

/-- An outbox row is the event of a document. -/
structure EventOf (row : DocumentRow) (event : OutboxRow) : Prop where
  aggregateId : event.aggregateId = row.id
  tenantId : event.tenantId = row.tenantId
  announces : Announces event.payload row

/-- Where only registrations commit, documents and events go in step, and each document
is that of a call. -/
theorem aligned {history : List Commit} {uuid5 : UUID → String → UUID}
    (legal : Legal uuid5 (registrations hexdigest calls).permits history) :
    List.Forall₂ EventOf (replay history).documents (replay history).outbox ∧
      ∀ row ∈ (replay history).documents, ∃ call, Records hexdigest (calls call) row := by
  induction history with
  | nil => exact ⟨List.Forall₂.nil, fun row hRow => by cases hRow⟩
  | cons commit history ih =>
      obtain ⟨hAligned, hRecords⟩ := ih legal.2
      obtain ⟨operation, ⟨call, record, event, rfl, hRecord⟩, enabled, _, hReplay⟩ :=
        legal.apply legal.2.unique
      obtain ⟨_, announces, hAbsent, _⟩ := enabled
      rw [hReplay, Operation.apply, Database.register, hAbsent]
      refine ⟨?_, fun row hRow => ?_⟩
      · refine List.rel_append hAligned (List.Forall₂.cons ?_ List.Forall₂.nil)
        exact ⟨rfl, rfl, announces⟩
      · rcases List.mem_append.mp hRow with hOld | hNew
        · exact hRecords row hOld
        · rw [List.mem_singleton.mp hNew]
          exact ⟨call, hRecord⟩

/-- Rows that go in step with rows under distinct keys have exactly one of each key. -/
theorem filter_of_aligned {rows : List DocumentRow} {events : List OutboxRow}
    (hAligned : List.Forall₂ EventOf rows events) (hKeyed : Keyed DocumentRow.id rows) :
    (∀ row ∈ rows, ∃ event, events.filter (fun event => event.aggregateId = row.id) = [event] ∧
      EventOf row event) ∧ ∀ event ∈ events, ∃ row ∈ rows, row.id = event.aggregateId := by
  induction hAligned with
  | nil =>
      constructor
      · intro row hRow
        cases hRow
      · intro event hEvent
        cases hEvent
  | @cons row event rows events hFirst _ ih =>
      obtain ⟨hFresh, hRest⟩ := List.nodup_cons.mp hKeyed
      obtain ⟨hEvents, hRows⟩ := ih hRest
      refine ⟨fun other hOther => ?_, fun other hOther => ?_⟩
      · rcases List.mem_cons.mp hOther with rfl | hOther
        · have hNone : events.filter (fun event => event.aggregateId = other.id) = [] := by
            rw [List.filter_eq_nil_iff]
            intro next hNext hSame
            obtain ⟨found, hFound, hKey⟩ := hRows next hNext
            exact hFresh (List.mem_map.mpr ⟨found, hFound, hKey.trans (of_decide_eq_true hSame)⟩)
          refine ⟨event, ?_, hFirst⟩
          rw [List.filter_cons, if_pos (decide_eq_true hFirst.aggregateId), hNone]
        · obtain ⟨found, hFound, hEvent⟩ := hEvents other hOther
          refine ⟨found, ?_, hEvent⟩
          rw [List.filter_cons, if_neg, hFound]
          intro hSame
          have hKey := hFirst.aggregateId.symm.trans (of_decide_eq_true hSame)
          exact hFresh (List.mem_map.mpr ⟨other, hOther, hKey.symm⟩)
      · rcases List.mem_cons.mp hOther with rfl | hOther
        · exact ⟨row, List.mem_cons_self .., hFirst.aggregateId.symm⟩
        · obtain ⟨found, hFound, hKey⟩ := hRows other hOther
          exact ⟨found, List.mem_cons_of_mem _ hFound, hKey⟩

/-- At most one document for each content, exactly one event for each document, which
carries its metadata, and no other events. -/
structure OneDocumentOneEvent (database : Database) : Prop where
  single : Keyed DocumentRow.contentKey database.documents
  event : ∀ row ∈ database.documents, ∃ event,
    database.outbox.filter (fun event => event.aggregateId = row.id) = [event] ∧
      EventOf row event
  origin : ∀ event ∈ database.outbox, ∃ row ∈ database.documents, row.id = event.aggregateId

theorem oneDocumentOneEvent_of_serialized {server : Server}
    (serialized : Serialized (registrations hexdigest calls) server) :
    OneDocumentOneEvent server.committed := by
  obtain ⟨hAligned, _⟩ := aligned serialized.legal
  have unique := serialized.legal.unique
  rw [← serialized.replayed] at hAligned unique
  obtain ⟨hEvents, hRows⟩ := filter_of_aligned hAligned unique.ids
  exact ⟨unique.contents, hEvents, hRows⟩

/-- The pool of calls, and one that has not started. -/
abbrev IngestPool := Pool Nat Server Call Response Failure Receipt

def start (hexdigest : Bytes → String) (calls : Nat → UploadCall library) : IngestPool where
  state := {}
  programs call := some (register hexdigest (calls call).tenant (calls call).upload)

theorem start_safe (hexdigest : Bytes → String) (calls : Nat → UploadCall library) :
    (serialization (registrations hexdigest calls)).PoolSafe (Registered hexdigest calls)
      (start hexdigest calls) := by
  refine ⟨serialized_empty _, fun agent program hProgram => ?_⟩
  cases hProgram
  exact safe_register ⟨rfl, fun commit hCommit => by cases hCommit⟩

/-- A call changes the committed tables only by a commit of its own. -/
theorem perform_committed {agent : Nat} {server next : Server} {request : Storage.Call}
    {choice : Choice} {answer : Except Failure (Response request)}
    (h : server.perform agent request choice = some (answer, next)) :
    next.committed = server.committed ∨
      request = .commit ∧ next.committed = applyAll (server.transactions agent) server.committed ∧
        next.history = { agent, writes := server.transactions agent
                         answered := choice.failure.isNone } :: server.history := by
  rcases perform_cases h with rfl | ⟨_, writes, _, _, rfl⟩ | ⟨rfl, rfl⟩ | rfl |
    ⟨key, stream, size, _, _, rfl⟩
  · exact Or.inl rfl
  · exact Or.inl rfl
  · by_cases hNone : server.transactions agent = []
    · refine Or.inl ?_
      have hPublish : server.publish agent choice.failure.isNone = server := by
        rw [Server.publish, if_pos (List.isEmpty_iff.mpr hNone)]
      rw [hPublish]
      rfl
    · exact Or.inr ⟨rfl, publish_committed, publish_history hNone⟩
  · exact Or.inl rfl
  · exact Or.inl rfl

/-- A step of a call leaves the committed tables as they are, or it is its commit and raises
although it adds the document of the call with its event. -/
def LeavesOrLoses (hexdigest : Bytes → String) (calls : Nat → UploadCall library) (call : Nat)
    (choice : Choice) (before after : IngestPool) : Prop :=
  after.state.committed = before.state.committed ∨
    (∃ rest, before.programs call = some (.call .commit rest)) ∧ choice.failure ≠ none ∧
      ∃ record event, Records hexdigest (calls call) record ∧ EventOf record event ∧
        after.state.committed =
          { before.state.committed with
            documents := before.state.committed.documents ++ [record]
            outbox := before.state.committed.outbox ++ [event] }

/-- No step of a call that fails changes the committed tables, but one whose answer is lost. -/
theorem failed_step {moves : List (Action Nat Choice Empty)} {reached : IngestPool}
    (hRun : Transition.run (Pool.step environment) moves (start hexdigest calls) = some reached)
    {call : Nat} {error : Failure} (hFailed : reached.programs call = some (.done (.error error)))
    {first rest : List (Action Nat Choice Empty)} {choice : Choice} {before after : IngestPool}
    (hMoves : moves = first ++ .advance call choice :: rest)
    (hBefore : Transition.run (Pool.step environment) first (start hexdigest calls) = some before)
    (hAfter : before.step environment (.advance call choice) = some after) :
    LeavesOrLoses hexdigest calls call choice before after := by
  have hSafeBefore := (steady_run Registered.undisturbed (start_safe hexdigest calls) hBefore).1
  have hSafeAfter := hSafeBefore.step Registered.undisturbed hAfter
  have hRest : Transition.run (Pool.step environment) rest after = some reached := by
    subst hMoves
    obtain ⟨middle, hMiddle, hTail⟩ :=
      (Transition.run_append_eq_some (Pool.step environment)).mp hRun
    cases hBefore.symm.trans hMiddle
    obtain ⟨next, hNext, hTail⟩ := (Transition.run_cons_eq_some _).mp hTail
    cases hAfter.symm.trans hNext
    exact hTail
  obtain ⟨hSafe, hSteady⟩ := steady_run Registered.undisturbed hSafeAfter hRest
  have hUnanswered : Unanswered hexdigest calls call reached.state := hSafe.2 call _ hFailed
  obtain ⟨request, next, answer, hProgram, hPerform, _⟩ := Pool.step_advance hAfter
  rcases perform_committed hPerform with hSame | ⟨rfl, hCommitted, hHistory⟩
  · exact Or.inl hSame
  · -- The commit is still in the history when the call has failed, so it was not answered.
    have hCommit : { agent := call, writes := before.state.transactions call
                     answered := choice.failure.isNone } ∈ after.state.history := by
      rw [hHistory]
      exact List.mem_cons_self ..
    obtain ⟨hLost, record, event, records, announces, hWrites⟩ :=
      hUnanswered _ (hSteady.history.subset hCommit) rfl
    refine Or.inr ⟨⟨next, hProgram⟩, ?_, record, outboxRow event, records,
      ⟨announces.documentId, ?_, announces⟩, ?_⟩
    · intro hNone
      rw [hNone] at hLost
      cases hLost
    · exact announces.tenantId
    · have hRegistered : before.state.transactions call =
          [.insertDocument record, .insertOutbox (outboxRow event)] := hWrites
      rw [hCommitted, hRegistered]
      rfl

/-- Calls of one tenant that succeed with the same bytes return the same document. -/
theorem same_document {server : Server}
    (serialized : Serialized (registrations hexdigest calls) server) {first second : Nat}
    (hTenant : (calls first).tenant = (calls second).tenant)
    (hDigest : (calls first).digest hexdigest = (calls second).digest hexdigest)
    {receipt other : Receipt} (hFirst : Registered hexdigest calls first (.ok receipt) server)
    (hSecond : Registered hexdigest calls second (.ok other) server) :
    receipt.documentId = other.documentId := by
  obtain ⟨row, hRow, hRowTenant, hRowDigest, hRowId⟩ := hFirst
  obtain ⟨found, hFound, hFoundTenant, hFoundDigest, hFoundId⟩ := hSecond
  have unique := serialized.legal.unique
  rw [← serialized.replayed] at unique
  have hKey : row.contentKey = found.contentKey := by
    rw [DocumentRow.contentKey, hRowTenant, hRowDigest, DocumentRow.contentKey, hFoundTenant,
      hFoundDigest, hTenant, hDigest]
  rw [← hRowId, ← hFoundId, unique.contents.eq_of_key hRow hFound hKey]

/-- However the steps of any number of calls interleave, and whichever of them fail: each
content has one document and each document one event; calls that succeed with the same
bytes return one document; and a call that fails has changed nothing that is committed, unless
the answer to its commit was lost. -/
theorem registration_once {moves : List (Action Nat Choice Empty)}
    {reached : IngestPool}
    (hRun : Transition.run (Pool.step environment) moves (start hexdigest calls) = some reached) :
    OneDocumentOneEvent reached.state.committed ∧
    (∀ first second receipt other, (calls first).tenant = (calls second).tenant →
      (calls first).content = (calls second).content →
      reached.programs first = some (.done (.ok receipt)) →
      reached.programs second = some (.done (.ok other)) →
      receipt.documentId = other.documentId) ∧
    ∀ call error, reached.programs call = some (.done (.error error)) →
      ∀ first choice rest before after, moves = first ++ .advance call choice :: rest →
        Transition.run (Pool.step environment) first (start hexdigest calls) = some before →
        before.step environment (.advance call choice) = some after →
        LeavesOrLoses hexdigest calls call choice before after := by
  obtain ⟨hSafe, _⟩ := steady_run Registered.undisturbed (start_safe hexdigest calls) hRun
  refine ⟨oneDocumentOneEvent_of_serialized hSafe.1, ?_, ?_⟩
  · intro first second receipt other hTenant hContent hFirst hSecond
    have hHashed (call : Nat) : (calls call).upload.digest = (calls call).content :=
      (UploadBody.accurate_read (calls call).read_ok).digest
    have hDigest : (calls first).digest hexdigest = (calls second).digest hexdigest := by
      rw [UploadCall.digest, UploadCall.digest, hHashed, hHashed, hContent]
    exact same_document hSafe.1 hTenant hDigest (hSafe.2 first _ hFirst) (hSafe.2 second _ hSecond)
  · intro call error hFailed first choice rest before after hMoves hBefore hAfter
    exact failed_step hRun hFailed hMoves hBefore hAfter

/-- A document that a call registered has the object of a call under its key. -/
theorem object_of_record {server : Server}
    (serialized : Serialized (registrations hexdigest calls) server) {row : DocumentRow}
    (hRow : row ∈ server.committed.documents) :
    ∃ call other, Records hexdigest (calls call) row ∧
      (calls other).key hexdigest = (calls call).key hexdigest ∧
      server.objects ((calls call).key hexdigest) =
        some ((calls other).upload.target.take (calls other).upload.size) := by
  have hMem := hRow
  rw [serialized.replayed] at hMem
  obtain ⟨call, records⟩ := (aligned serialized.legal).2 row hMem
  have hStored := serialized.stored trivial row hRow _ records.objectKey
  obtain ⟨data, hData⟩ := Option.isSome_iff_exists.mp hStored
  obtain ⟨other, hKey, rfl⟩ := serialized.objects _ data hData
  exact ⟨call, other, records, hKey.symm, hData⟩

/-- Without collisions, an object is the content of every call with its key. -/
theorem object_content (lawful : library.Lawful)
    (hDigest : ∀ data, validDigest (hexdigest data) = true)
    (hCollision : ∀ first second, hexdigest (calls first).content =
      hexdigest (calls second).content → (calls first).content = (calls second).content)
    {call other : Nat} (hKey : (calls other).key hexdigest = (calls call).key hexdigest) :
    (calls other).upload.target.take (calls other).upload.size = (calls call).content := by
  have hHashed (call : Nat) : (calls call).digest hexdigest =
      hexdigest (calls call).content := by
    rw [UploadCall.digest, (UploadBody.accurate_read (calls call).read_ok).digest,
      UploadCall.content]
  have hSame : (calls other).digest hexdigest = (calls call).digest hexdigest :=
    (contentObjectKey_inj (hDigest _) (hDigest _) hKey).2
  rw [hHashed, hHashed] at hSame
  rw [UploadBody.size_read lawful (calls other).read_ok, List.take_length]
  exact hCollision other call hSame

/-- A committed document has its bytes under the key of its tenant and digest, with its
size, digest and kind, and no later step changes them. -/
theorem committed_bytes (lawful : library.Lawful)
    (hDigest : ∀ data, validDigest (hexdigest data) = true)
    (hCollision : ∀ first second, hexdigest (calls first).content =
      hexdigest (calls second).content → (calls first).content = (calls second).content)
    {moves rest : List (Action Nat Choice Empty)} {reached later : IngestPool}
    (hReached : Transition.run (Pool.step environment) moves (start hexdigest calls) =
      some reached)
    (hLater : Transition.run (Pool.step environment) rest reached = some later)
    {row : DocumentRow} (hRow : row ∈ reached.state.committed.documents) {key : String}
    (hKey : row.objectKey = some key) :
    key = contentObjectKey row.tenantId row.sha256 ∧
      ∃ data, reached.state.objects key = some data ∧ row.sizeBytes = some data.length ∧
        hexdigest data = row.sha256 ∧ mediaType data = .ok row.mediaType ∧
        later.state.objects key = some data := by
  obtain ⟨hSafe, _⟩ := steady_run Registered.undisturbed (start_safe hexdigest calls) hReached
  obtain ⟨hSafeLater, hSteady⟩ := steady_run Registered.undisturbed hSafe hLater
  obtain ⟨call, other, records, hOther, hObject⟩ := object_of_record hSafe.1 hRow
  have accurate := UploadBody.accurate_read (calls call).read_ok
  obtain rfl : (calls call).key hexdigest = key :=
    Option.some.inj (records.objectKey.symm.trans hKey)
  rw [object_content lawful hDigest hCollision hOther] at hObject
  refine ⟨?_, (calls call).content, hObject, ?_, ?_, ?_, ?_⟩
  · rw [records.tenantId, records.sha256, UploadCall.key]
  · rw [records.sizeBytes, UploadBody.size_read lawful (calls call).read_ok, UploadCall.content]
  · rw [records.sha256, UploadCall.digest, accurate.digest, UploadCall.content]
  · rw [← mediaType_take, UploadCall.content, ← accurate.leading]
    exact records.mediaType
  · -- It is still there, and what is there is the content of a call with its key.
    have hStored := hSteady.objects _ (Option.isSome_iff_exists.mpr ⟨_, hObject⟩)
    obtain ⟨data, hData⟩ := Option.isSome_iff_exists.mp hStored
    obtain ⟨last, hLast, rfl⟩ := hSafeLater.1.objects _ data hData
    rw [hData, object_content lawful hDigest hCollision hLast.symm]

/-! A form with one file, which two calls of a tenant upload at the same time while the
events of a third call cannot be written. -/

def formType : Bytes := ascii "multipart/form-data; boundary=x"

def formDisposition : Bytes := ascii "form-data; name=\"file\"; filename=\"a.pdf\""

def formBytes : Bytes :=
  ascii "--x\r\nContent-Disposition: form-data; name=\"file\"; filename=\"a.pdf\"\r\n\r\n%PDF-\r\n--x--\r\n"

/-- What the parser makes of the form. -/
def formLibrary : MultipartLibrary where
  parseOptions header :=
    if header = formType then (ascii "multipart/form-data", [(ascii "boundary", ascii "x")])
    else if header = formDisposition then
      (ascii "form-data", [(ascii "name", ascii "file"), (ascii "filename", ascii "a.pdf")])
    else ([], [])
  decode bytes := String.ofList (bytes.map fun byte => Char.ofNat byte.toNat)
  Parser := Unit
  new _ := ()
  write _ block :=
    if block = formBytes then
      ([.partBegin, .headerField block 5 24, .headerValue block 26 66, .headerEnd,
        .headersFinished, .partData block 70 75, .finish], some ())
    else ([], some ())
  finalize _ := ([], true)

theorem formLibrary_lawful : formLibrary.Lawful where
  write _ block callback hCallback := by
    simp only [formLibrary] at hCallback
    split_ifs at hCallback with hForm
    · have hLength : block.length = 84 := by
        rw [hForm]
        decide
      simp only [List.mem_cons, List.not_mem_nil, or_false] at hCallback
      rcases hCallback with rfl | rfl | rfl | rfl | rfl | rfl | rfl
      all_goals
        first
        | trivial
        | exact ⟨by omega, by omega⟩
    · cases hCallback
  finalize _ callback hCallback := by cases hCallback

def formUpload : UploadBody where
  limit := 100
  target := ascii "%PDF-"
  size := 5
  digest := ascii "%PDF-"
  leading := ascii "%PDF-"
  filename := "a.pdf"
  headers := [(ascii "content-disposition", formDisposition)]
  headerCount := 1
  parts := 1
  complete := true

def formCalls (call : Nat) : UploadCall formLibrary where
  tenant := if call = 2 then "umbrella" else "acme"
  limit := 100
  contentType := formType
  blocks := [formBytes]
  upload := formUpload
  read_ok := by rfl

/-- The digest of the file. -/
def formDigest : String := "38523c087796e5d5dd1cf9bad1fb026781a838dd9dd2cf8af58b9f6502a46778"

/-- Both calls find no duplicate and store the object, and the first one inserts. -/
def racingMoves : List (Action Nat Choice Empty) :=
  List.replicate 7 (.advance 0 (giving 1)) ++ List.replicate 7 (.advance 1 (giving 2)) ++
    List.replicate 5 (.advance 0 (giving 1)) ++ List.replicate 3 (.advance 1 (giving 2))

/-- The third call's outbox insert fails, and it rolls back. -/
def failingMoves : List (Action Nat Choice Empty) :=
  List.replicate 10 (.advance 2 (giving 3)) ++
    [.advance 2 { giving 3 with failure := some .operational }, .advance 2 (giving 3)]

/-- How a call has ended. -/
def outcomeOf (pool : IngestPool) (call : Nat) : Option (Except Failure Receipt) :=
  match pool.programs call with
  | some (.done outcome) => some outcome
  | _ => none

theorem programs_of_outcome {pool : IngestPool} {call : Nat} {outcome : Except Failure Receipt}
    (h : outcomeOf pool call = some outcome) : pool.programs call = some (.done outcome) := by
  unfold outcomeOf at h
  split at h
  · rename_i hProgram
    cases h
    exact hProgram
  · cases h

theorem registration_once_racing :
    ∃ reached receipt, Transition.run (Pool.step environment) (racingMoves ++ failingMoves)
        (start (fun _ => formDigest) formCalls) = some reached ∧
      reached.programs 0 = some (.done (.ok receipt)) ∧
      reached.programs 1 = some (.done (.ok receipt)) ∧
      reached.programs 2 = some (.done (.error .operational)) ∧
      reached.state.committed.documents.length = 1 ∧
      OneDocumentOneEvent reached.state.committed := by
  have hRun : (Transition.run (Pool.step environment) (racingMoves ++ failingMoves)
      (start (fun _ => formDigest) formCalls)).map (fun reached =>
        (outcomeOf reached 0, outcomeOf reached 1, outcomeOf reached 2,
          reached.state.committed.documents.length)) =
      some (some (.ok ⟨⟨1⟩, formDigest, .stored .uploaded⟩),
        some (.ok ⟨⟨1⟩, formDigest, .stored .uploaded⟩), some (.error .operational), 1) := by
    decide +kernel
  obtain ⟨reached, hReached, hOutcomes⟩ := Option.map_eq_some_iff.mp hRun
  simp only [Prod.mk.injEq] at hOutcomes
  obtain ⟨hFirst, hSecond, hThird, hLength⟩ := hOutcomes
  exact ⟨reached, _, hReached, programs_of_outcome hFirst, programs_of_outcome hSecond,
    programs_of_outcome hThird, hLength, (registration_once hReached).1⟩

/-- A call up to its commit. -/
def uncommittedMoves : List (Action Nat Choice Empty) := List.replicate 11 (.advance 0 (giving 1))

/-- A commit whose answer is lost. -/
def lost : Choice := { giving 1 with failure := some .operational, stored := true }

/-- A call that fails when the answer to its commit is lost has stored its document. -/
theorem failed_registration_stored :
    ¬∀ (moves : List (Action Nat Choice Empty)) (reached : IngestPool),
      Transition.run (Pool.step environment) moves (start (fun _ => formDigest) formCalls) =
        some reached →
      ∀ call error, reached.programs call = some (.done (.error error)) →
        ∀ first choice rest before after, moves = first ++ .advance call choice :: rest →
          Transition.run (Pool.step environment) first (start (fun _ => formDigest) formCalls) =
            some before →
          before.step environment (.advance call choice) = some after →
          after.state.committed = before.state.committed := by
  intro h
  have hRuns : (Transition.run (Pool.step environment) uncommittedMoves
      (start (fun _ => formDigest) formCalls)).bind (fun before =>
        (before.step environment (.advance 0 lost)).map fun after =>
          (outcomeOf after 0, before.state.committed.documents.length,
            after.state.committed.documents.length)) =
      some (some (.error .operational), 0, 1) := by decide +kernel
  obtain ⟨before, hBefore, hRest⟩ := Option.bind_eq_some_iff.mp hRuns
  obtain ⟨after, hAfter, hCounts⟩ := Option.map_eq_some_iff.mp hRest
  obtain ⟨hFailed, hNone, hOne⟩ : outcomeOf after 0 = some (.error .operational) ∧
      before.state.committed.documents.length = 0 ∧
      after.state.committed.documents.length = 1 := by simpa using hCounts
  have hRun : Transition.run (Pool.step environment) (uncommittedMoves ++ [.advance 0 lost])
      (start (fun _ => formDigest) formCalls) = some after :=
    (Transition.run_append_eq_some _).mpr
      ⟨before, hBefore, (Transition.run_cons_eq_some _).mpr ⟨after, hAfter, rfl⟩⟩
  have hSame := h _ after hRun 0 .operational (programs_of_outcome hFailed) uncommittedMoves lost []
    before after rfl hBefore hAfter
  rw [hSame, hNone] at hOne
  cases hOne

theorem committed_bytes_racing :
    ∃ reached later row data, Transition.run (Pool.step environment) racingMoves
        (start (fun _ => formDigest) formCalls) = some reached ∧
      Transition.run (Pool.step environment) failingMoves reached = some later ∧
      reached.state.committed.documents = [row] ∧
      reached.state.objects ("acme/" ++ formDigest) = some data ∧
      row.sizeBytes = some data.length ∧ mediaType data = .ok row.mediaType ∧
      later.state.objects ("acme/" ++ formDigest) = some data := by
  have hRuns : (Transition.run (Pool.step environment) racingMoves
      (start (fun _ => formDigest) formCalls)).bind (fun reached =>
        (Transition.run (Pool.step environment) failingMoves reached).map fun _ =>
          reached.state.committed.documents.map DocumentRow.objectKey) =
      some [some ("acme/" ++ formDigest)] := by decide +kernel
  obtain ⟨reached, hReached, hRest⟩ := Option.bind_eq_some_iff.mp hRuns
  obtain ⟨later, hLater, hKeys⟩ := Option.map_eq_some_iff.mp hRest
  obtain ⟨row, hRow, hKey⟩ := List.map_eq_singleton_iff.mp hKeys
  obtain ⟨_, data, hData, hSize, _, hKind, hStays⟩ :=
    committed_bytes formLibrary_lawful (fun _ => by decide) (fun _ _ _ => rfl) hReached hLater
      (hRow ▸ List.mem_singleton_self row) hKey
  exact ⟨reached, later, row, data, hReached, hLater, hRow, hData, hSize, hKind, hStays⟩

end DocInsight.Ingest
