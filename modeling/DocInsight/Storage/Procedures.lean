import DocInsight.Storage.DerivedRows
import DocInsight.Storage.Serialization

/-! The repository's procedures under concurrency. Each commits one operation or nothing,
and what it has committed is there when it returns. -/
namespace DocInsight.Storage

open DocInsight.Contracts DocInsight.Worker Interaction Interaction.Discipline Table

/-- Facts of tables, objects and history that others leave standing. -/
structure Durable (agent : Nat) (known : Server → Prop) : Prop where
  undisturbed : ∀ server next, Undisturbed agent server next → known server → known next
  same : ∀ server next, next.committed = server.committed → next.history = server.history →
    next.objects = server.objects → known server → known next

theorem Durable.and {agent : Nat} {known other : Server → Prop} (h : Durable agent known)
    (h' : Durable agent other) : Durable agent fun server => known server ∧ other server where
  undisturbed server next hNext hKnown :=
    ⟨h.undisturbed server next hNext hKnown.1, h'.undisturbed server next hNext hKnown.2⟩
  same server next hCommitted hHistory hObjects hKnown :=
    ⟨h.same server next hCommitted hHistory hObjects hKnown.1,
      h'.same server next hCommitted hHistory hObjects hKnown.2⟩

/-- An agent outside of its transactions. -/
structure Idle (agent : Nat) (known : Server → Prop) (server : Server) : Prop where
  writes : server.transactions agent = []
  known : known server

/-- An agent in a transaction that has written something. It has locked a content, whose
row it found or whose identifier it inserts. -/
structure Holding (agent : Nat) (known : Server → Prop) (record : DocumentRow)
    (base : Option DocumentRow) (writes : List Write) (server : Server) : Prop where
  writes : server.transactions agent = writes
  known : known server
  lock : (agent, .content record.tenantId record.sha256) ∈ server.locks
  found : server.committed.findByContent record.tenantId record.sha256 = base
  fresh : base = none → (agent, .document record.id) ∈ server.locks ∧
    select DocumentRow.id record.id server.committed.documents = none

/-- The calls that leave the server as it is. -/
def Quiet : Call → Prop
  | .begin | .identifier | .clock | .outside _ | .stream _ => True
  | .execute _ | .commit | .rollback | .putObject .. => False

section Rules
variable {policy : Policy} {agent : Nat} {known : Server → Prop} {server now : Server}
  {record : DocumentRow} {base : Option DocumentRow} {writes : List Write}

theorem Idle.undisturbed (durable : Durable agent known) (idle : Idle agent known server)
    (h : Undisturbed agent server now) : Idle agent known now where
  writes := h.transaction.trans idle.writes
  known := durable.undisturbed server now h idle.known

theorem Holding.undisturbed (durable : Durable agent known)
    (holding : Holding agent known record base writes server) (h : Undisturbed agent server now) :
    Holding agent known record base writes now where
  writes := h.transaction.trans holding.writes
  known := durable.undisturbed server now h holding.known
  lock := (h.locks _).mpr holding.lock
  found := (h.contents _ _ holding.lock).trans holding.found
  fresh hNone := by
    obtain ⟨hLock, hFresh⟩ := holding.fresh hNone
    exact ⟨(h.locks _).mpr hLock, h.fresh record.id hLock hFresh⟩

theorem Holding.stage (durable : Durable agent known)
    (holding : Holding agent known record base writes server) (added : List Write) :
    Holding agent known record base (writes ++ added) (server.stage agent added) where
  writes := by rw [stage_transactions, holding.writes]
  known := durable.same server _ rfl rfl rfl holding.known
  lock := mem_stage_locks.mpr (Or.inr holding.lock)
  found := holding.found
  fresh hNone := by
    obtain ⟨hLock, hFresh⟩ := holding.fresh hNone
    exact ⟨mem_stage_locks.mpr (Or.inr hLock), hFresh⟩

theorem publish_history {answered : Bool} (h : server.transactions agent ≠ []) :
    (server.publish agent answered).history =
      { agent, writes := server.transactions agent, answered } :: server.history := by
  rw [Server.publish, if_neg fun hEmpty => h (List.isEmpty_iff.mp hEmpty)]

/-- After any ending of its transaction an agent is idle. -/
theorem Durable.finish (durable : Durable agent known) (hKnown : known server) :
    Idle agent known (server.finish agent) where
  writes := finish_transactions agent server
  known := durable.same server _ rfl rfl rfl hKnown

theorem perform_quiet {request : Call} {choice : Choice} {answer : Except Failure (Response request)}
    {next : Server} (hQuiet : Quiet request)
    (h : server.perform agent request choice = some (answer, next)) : next = server := by
  cases request with
  | begin | identifier | clock | outside | stream =>
      cases hFailure : choice.failure <;>
      · simp only [Server.perform, hFailure] at h
        cases h
        rfl
  | execute | commit | rollback | putObject => cases hQuiet

/-- A quiet call needs no permission, and answers whatever it may. -/
theorem safe_quiet {request : Call} (hQuiet : Quiet request)
    {post : Except Failure (Response request) → Server → Prop}
    (hPost : ∀ now, Undisturbed agent server now → ∀ answer, post answer now) :
    (serialization policy).Safe agent (perform request) post server := by
  apply Safe.perform
  intro now hRely _
  have hGuard : Permitted policy agent now request := by
    cases request with
    | begin | identifier | clock | outside | stream => trivial
    | execute | commit | rollback | putObject => cases hQuiet
  refine ⟨hGuard, fun choice answer after hPerform _ => ?_⟩
  cases perform_quiet hQuiet hPerform
  exact hPost _ hRely answer

/-- A statement raises and changes nothing, or answers and adds to the transaction. -/
theorem safe_execute (statement : Statement)
    {post : Except Failure statement.Answer → Server → Prop}
    (h : ∀ now, Undisturbed agent server now → Serialized policy now →
      (∀ error, post (.error error) now) ∧ ∀ time answer writes,
        statement.execute (now.view agent) time = .ok (answer, writes) →
          post (.ok answer) (now.stage agent writes)) :
    (serialization policy).Safe agent (execute statement) post server := by
  apply Safe.perform
  intro now hRely hInv
  obtain ⟨hError, hOk⟩ := h now hRely hInv
  refine ⟨trivial, fun choice answer after hPerform _ => ?_⟩
  have hStep : now.perform agent (.execute statement) choice = some (answer, after) := hPerform
  cases hFailure : choice.failure with
  | some error =>
      simp only [Server.perform, hFailure] at hStep
      cases hStep
      exact hError error
  | none =>
      simp only [Server.perform, hFailure] at hStep
      cases hExecute : statement.execute (now.view agent) choice.now with
      | error error =>
          rw [hExecute] at hStep
          cases hStep
          exact hError error
      | ok result =>
          obtain ⟨found, writes⟩ := result
          rw [hExecute] at hStep
          simp only at hStep
          split_ifs at hStep
          cases hStep
          exact hOk choice.now found writes hExecute

/-- A transaction whose body ends ready to commit, or raises with what it knew. -/
theorem safe_transaction {Result : Type} {body : Procedure Result}
    {ready : Result → Server → Prop} {post : Except Failure Result → Server → Prop}
    (durable : Durable agent known) (idle : Idle agent known server)
    (hBody : ∀ now, Undisturbed agent server now → Idle agent known now →
      (serialization policy).Safe agent body (fun outcome now => match outcome with
        | .ok result => ready result now
        | .error _ => known now) now)
    (hReady : ∀ result now later, Undisturbed agent now later → ready result now →
      ready result later)
    (hCommit : ∀ result now, Serialized policy now → ready result now →
      known now ∧ Permitted policy agent now .commit ∧
        post (.ok result) ((now.publish agent true).finish agent) ∧
        ∀ error, post (.error error) ((now.publish agent false).finish agent))
    (hError : ∀ error now, Idle agent known now → post (.error error) now) :
    (serialization policy).Safe agent (transaction body) post server := by
  have hStable {outcome : Except Failure Result} {before after : Server}
      (hRely : Undisturbed agent before after)
      (hBefore : match outcome with
        | .ok result => ready result before
        | .error _ => known before) : match outcome with
        | .ok result => ready result after
        | .error _ => known after := by
    cases outcome with
    | ok result => exact hReady result before after hRely hBefore
    | error error => exact durable.undisturbed before after hRely hBefore
  apply Safe.bind
  apply safe_quiet (show Quiet .begin from trivial)
  intro now hRely answer
  have hIdle := idle.undisturbed durable hRely
  cases answer with
  | error error => exact hError error now hIdle
  | ok _ =>
      apply Safe.andThen
      apply (hBody now hRely hIdle).mono
      intro outcome ended hEnded
      cases outcome with
      | error error =>
          apply Safe.andThen
          apply Safe.perform
          intro later hLater _
          refine ⟨trivial, fun choice answer after hPerform _ => ?_⟩
          have hStep : later.perform agent .rollback choice = some (answer, after) := hPerform
          have hFinish : after = later.finish agent := by
            cases hFailure : choice.failure <;>
            · simp only [Server.perform, hFailure] at hStep
              cases hStep
              rfl
          rw [hFinish]
          exact hError error _ (durable.finish (durable.undisturbed ended later hLater hEnded))
      | ok result =>
          apply Safe.andThen
          apply Safe.perform
          intro later hLater hInv
          obtain ⟨hKnown, permitted, hPost, hLost⟩ :=
            hCommit result later hInv (hReady result ended later hLater hEnded)
          refine ⟨permitted, fun choice answer after hPerform _ => ?_⟩
          have hStep : later.perform agent .commit choice = some (answer, after) := hPerform
          cases hFailure : choice.failure with
          | some error =>
              simp only [Server.perform, hFailure] at hStep
              cases hStep
              split_ifs
              · exact hLost error
              · exact hError error _ (durable.finish hKnown)
          | none =>
              simp only [Server.perform, hFailure] at hStep
              cases hStep
              exact hPost

theorem Idle.view (idle : Idle agent known server) : server.view agent = server.committed := by
  rw [Server.view, idle.writes, applyAll_nil]

/-- A read-only statement changes nothing. -/
theorem Idle.stage_nil (durable : Durable agent known) (idle : Idle agent known server) :
    Idle agent known (server.stage agent []) where
  writes := by rw [stage_transactions, idle.writes, List.append_nil]
  known := durable.same server _ rfl rfl rfl idle.known

/-- An idle agent's first write takes the lock of its content. -/
theorem Idle.hold (durable : Durable agent known) (idle : Idle agent known server) {write : Write}
    (hFound : server.committed.findByContent record.tenantId record.sha256 = base)
    (hLock : .content record.tenantId record.sha256 ∈ write.locks)
    (hFresh : base = none → .document record.id ∈ write.locks ∧
      select DocumentRow.id record.id server.committed.documents = none) :
    Holding agent known record base [write] (server.stage agent [write]) where
  writes := by rw [stage_transactions, idle.writes, List.nil_append]
  known := durable.same server _ rfl rfl rfl idle.known
  lock := mem_stage_locks.mpr (Or.inl ⟨rfl, List.mem_flatMap.mpr ⟨write, by simp, hLock⟩⟩)
  found := hFound
  fresh hNone := by
    obtain ⟨hDocument, hNew⟩ := hFresh hNone
    exact ⟨mem_stage_locks.mpr (Or.inl
      ⟨rfl, List.mem_flatMap.mpr ⟨write, by simp, hDocument⟩⟩), hNew⟩

/-- A commit of nothing leaves the server as it is. -/
theorem Idle.publish (idle : Idle agent known server) (answered : Bool) :
    server.publish agent answered = server := by
  rw [Server.publish, idle.writes]
  rfl

theorem Idle.permitted (idle : Idle agent known server) : Permitted policy agent server .commit :=
  fun hWrites => absurd idle.writes hWrites

/-- A statement within a transaction that writes one thing. -/
theorem safe_write (durable : Durable agent known)
    (holding : Holding agent known record base writes server) (statement : Statement)
    {write : Write} (hWrite : ∀ database time answer added,
      statement.execute database time = .ok (answer, added) → added = [write]) :
    (serialization policy).Safe agent (execute statement) (fun outcome now => match outcome with
      | .ok _ => Holding agent known record base (writes ++ [write]) now
      | .error _ => known now) server := by
  apply safe_execute
  intro now hRely _
  have hNow := holding.undisturbed durable hRely
  refine ⟨fun _ => hNow.known, fun time answer added hExecute => ?_⟩
  rw [hWrite _ time answer added hExecute]
  exact hNow.stage durable [write]

end Rules

/-- The document of a content is there, under this identifier. -/
def Located (tenantId sha256 : String) (id : UUID) (server : Server) : Prop :=
  ∃ row ∈ server.committed.documents, row.tenantId = tenantId ∧ row.sha256 = sha256 ∧ row.id = id

theorem Located.persists {tenantId sha256 : String} {id : UUID} {server next : Server}
    (h : Located tenantId sha256 id server) (hPersists : Persists server.committed next.committed) :
    Located tenantId sha256 id next := by
  obtain ⟨row, hRow, hTenant, hDigest, hId⟩ := h
  obtain ⟨later, hLater, hSame⟩ := hPersists row hRow
  exact ⟨later, hLater, hSame.tenantId.trans hTenant, hSame.sha256.trans hDigest,
    hSame.id.trans hId⟩

/-- What a lookup by content finds is located. -/
theorem located_of_findByContent {tenantId sha256 : String} {server : Server} {row : DocumentRow}
    (h : server.committed.findByContent tenantId sha256 = some row) :
    Located tenantId sha256 row.id server := by
  obtain ⟨hRow, hKey⟩ := select_mem h
  exact ⟨row, hRow, congrArg Prod.fst hKey, congrArg Prod.snd hKey, rfl⟩

section Lookup
variable {policy : Policy} {agent : Nat} {known : Server → Prop} {server : Server}

/-- A duplicate that is found stays located. -/
theorem safe_findBySha256 (durable : Durable agent known) (idle : Idle agent known server)
    (tenantId sha256 : String) :
    (serialization policy).Safe agent (findBySha256 tenantId sha256)
      (fun outcome now => Idle agent known now ∧ ∀ document, outcome = .ok (some document) →
        Located tenantId sha256 document.id now) server := by
  refine @safe_transaction policy agent known server _ _
    (fun result now => Idle agent known now ∧ ∀ document, result = some document →
      Located tenantId sha256 document.id now) _ durable idle ?_ ?_ ?_ ?_
  · intro now _ hIdle
    apply Safe.bind
    apply safe_execute
    intro later hRely _
    have hLater := hIdle.undisturbed durable hRely
    refine ⟨fun _ => hLater.known, fun time answer added hExecute => ?_⟩
    rw [hLater.view] at hExecute
    cases hExecute
    refine ⟨hLater.stage_nil durable, fun document hDocument => ?_⟩
    obtain ⟨row, hFound, rfl⟩ := Option.map_eq_some_iff.mp hDocument
    exact located_of_findByContent hFound
  · rintro result now later hRely ⟨hIdle, hLocated⟩
    exact ⟨hIdle.undisturbed durable hRely,
      fun document hDocument => (hLocated document hDocument).persists hRely.persists⟩
  · rintro result now _ ⟨hIdle, hLocated⟩
    refine ⟨hIdle.known, hIdle.permitted, ⟨?_, ?_⟩, fun error => ⟨?_, ?_⟩⟩
    · rw [hIdle.publish]
      exact durable.finish hIdle.known
    · intro document hDocument
      rw [hIdle.publish]
      exact hLocated document (Except.ok.inj hDocument)
    · rw [hIdle.publish]
      exact durable.finish hIdle.known
    · intro document hDocument
      cases hDocument
  · intro error now hIdle
    exact ⟨hIdle, fun document hDocument => by cases hDocument⟩

/-- What a snapshot found: a document of the tenant under the identifier it looked for. -/
def FoundIn (known : Server → Prop) (agent : Nat) (tenantId : String) (documentId : UUID)
    (outcome : Except Failure (Option StoredDocument)) (now : Server) : Prop :=
  Idle agent known now ∧ ∀ document, outcome = .ok (some document) →
    Located tenantId document.sha256 documentId now

/-- Closing the snapshot keeps what it found. -/
theorem safe_closing (durable : Durable agent known) {tenantId : String} {documentId : UUID}
    {outcome : Except Failure (Option StoredDocument)}
    (h : FoundIn known agent tenantId documentId outcome server) :
    (serialization policy).Safe agent (perform .rollback) (fun cleaned now =>
      match cleaned with
      | .ok _ => FoundIn known agent tenantId documentId outcome now
      | .error error => FoundIn known agent tenantId documentId (.error error) now) server := by
  apply Safe.perform
  intro now hRely _
  refine ⟨trivial, fun choice answer after hPerform _ => ?_⟩
  have hStep : now.perform agent .rollback choice = some (answer, after) := hPerform
  have hFinish := durable.finish (h.1.undisturbed durable hRely).known
  cases hFailure : choice.failure with
  | some error =>
      simp only [Server.perform, hFailure] at hStep
      cases hStep
      exact ⟨hFinish, fun document hDocument => by cases hDocument⟩
  | none =>
      simp only [Server.perform, hFailure] at hStep
      cases hStep
      exact ⟨hFinish, fun document hDocument => (h.2 document hDocument).persists hRely.persists⟩

/-- A document that is read stays located. -/
theorem safe_getDocument (durable : Durable agent known) (idle : Idle agent known server)
    (tenantId : String) (documentId : UUID) :
    (serialization policy).Safe agent (getDocument tenantId documentId)
      (FoundIn known agent tenantId documentId) server := by
  apply Safe.bind
  apply safe_quiet (show Quiet .begin from trivial)
  intro now hRely answer
  have hIdle := idle.undisturbed durable hRely
  cases answer with
  | error error => exact ⟨hIdle, fun document hDocument => by cases hDocument⟩
  | ok _ =>
      apply Safe.tryFinally
      apply safe_execute
      intro later hLater _
      have hIdleLater := hIdle.undisturbed durable hLater
      refine ⟨fun error => ?_, fun time answer added hExecute => ?_⟩
      · have hFound : FoundIn known agent tenantId documentId (.error error) later :=
          ⟨hIdleLater, fun document hDocument => by cases hDocument⟩
        apply (safe_closing durable hFound).mono
        intro cleaned ended hEnded
        cases cleaned with
        | ok _ => exact hEnded
        | error error => exact hEnded
      · rw [hIdleLater.view] at hExecute
        cases hExecute
        have hFound : FoundIn known agent tenantId documentId
            (.ok (later.committed.getDocument tenantId documentId)) (later.stage agent []) := by
          refine ⟨hIdleLater.stage_nil durable, fun document hDocument => ?_⟩
          obtain ⟨row, hFound, hRow⟩ := Option.map_eq_some_iff.mp (Except.ok.inj hDocument)
          obtain ⟨hMem, hKey⟩ := select_mem hFound
          refine ⟨row, hMem, congrArg Prod.fst hKey, ?_, congrArg Prod.snd hKey⟩
          rw [← hRow]
        apply (safe_closing durable hFound).mono
        intro cleaned ended hEnded
        cases cleaned with
        | ok _ => exact hEnded
        | error error => exact hEnded

end Lookup

section Register
variable {policy : Policy} {agent : Nat} {known : Server → Prop} {server : Server}
  {record : DocumentRow}

/-- The event of a record with a size and an object announces it. -/
theorem announces_uploadedEvent {eventId : UUID} {traceparent : Option String} {size : Nat}
    {key : String} {event : DocumentUploaded}
    (hSize : record.sizeBytes = some size) (hKey : record.objectKey = some key)
    (h : uploadedEvent record eventId traceparent = .ok event) : Announces event record := by
  unfold uploadedEvent at h
  split_ifs at h
  cases h
  exact ⟨rfl, rfl, rfl, rfl, by rw [hSize, Option.getD_some], by rw [hKey, Option.getD_some], rfl⟩

/-- A registration before its commit: the content has its document already, or the new
document is written with its event. -/
def Registering (agent : Nat) (known : Server → Prop) (record : DocumentRow)
    (document : StoredDocument) (now : Server) : Prop :=
  Idle agent known now ∧ Located record.tenantId record.sha256 document.id now ∨
    document.id = record.id ∧ ∃ event, Announces event record ∧
      Holding agent known record none
        [.insertDocument record, .insertOutbox (outboxRow event)] now

/-- The winner's transaction goes on to its event. -/
theorem safe_enqueue (durable : Durable agent known) {size : Nat} {key : String}
    (hSize : record.sizeBytes = some size) (hKey : record.objectKey = some key)
    (holding : Holding agent known record none [.insertDocument record] server) :
    (serialization policy).Safe agent (enqueue record) (fun outcome now => match outcome with
      | .ok _ => ∃ event, Announces event record ∧ Holding agent known record none
          [.insertDocument record, .insertOutbox (outboxRow event)] now
      | .error _ => known now) server := by
  apply Safe.bind
  apply safe_quiet (show Quiet .identifier from trivial)
  intro now hRely answer
  have hNow := holding.undisturbed durable hRely
  cases answer with
  | error error => exact hNow.known
  | ok eventId =>
      apply Safe.bind
      apply safe_quiet (show Quiet (.outside .traceparent) from trivial)
      intro later hLater answer
      have hHolding := hNow.undisturbed durable hLater
      cases answer with
      | error error => exact hHolding.known
      | ok traceparent =>
          simp only
          cases hEvent : uploadedEvent record eventId traceparent with
          | error error => exact hHolding.known
          | ok event =>
              have announces := announces_uploadedEvent hSize hKey hEvent
              apply (safe_write durable hHolding (.insertOutbox (outboxRow event)) ?_).mono
              · intro outcome ended hEnded
                cases outcome with
                | ok _ => exact ⟨event, announces, hEnded⟩
                | error error => exact hEnded
              · intro database time answer added hExecute
                simp only [Statement.execute] at hExecute
                split_ifs at hExecute
                cases hExecute
                rfl

/-- The insert decides: its winner enqueues the event, and a loser reads the winner. -/
theorem safe_registerBody (durable : Durable agent known) (idle : Idle agent known server)
    {size : Nat} {key : String} (hSize : record.sizeBytes = some size)
    (hKey : record.objectKey = some key) :
    (serialization policy).Safe agent (do
        let inserted ← execute (.insertDocument record)
        match inserted with
        | some row => do
            enqueue record
            pure (storedRow row)
        | none => do
            let found ← execute (.selectByContent record.tenantId record.sha256)
            match found with
            | some row => pure (storedRow row)
            | none => throw (.other "NoResultFound"))
      (fun outcome now => match outcome with
        | .ok document => Registering agent known record document now
        | .error _ => known now) server := by
  apply Safe.bind
  apply safe_execute
  intro now hRely _
  have hNow := idle.undisturbed durable hRely
  refine ⟨fun _ => hNow.known, fun time answer added hExecute => ?_⟩
  rw [hNow.view] at hExecute
  simp only [Statement.execute] at hExecute
  cases hFound : now.committed.findByContent record.tenantId record.sha256 with
  | some row =>
      rw [hFound] at hExecute
      cases hExecute
      apply Safe.bind
      apply safe_execute
      intro later hLater _
      have hIdle := (hNow.stage_nil durable).undisturbed durable hLater
      refine ⟨fun _ => hIdle.known, fun time answer added hExecute => ?_⟩
      rw [hIdle.view] at hExecute
      cases hExecute
      cases hAgain : later.committed.findByContent record.tenantId record.sha256 with
      | none => exact (hIdle.stage_nil durable).known
      | some row => exact Or.inl ⟨hIdle.stage_nil durable, located_of_findByContent hAgain⟩
  | none =>
      rw [hFound] at hExecute
      simp only at hExecute
      split_ifs at hExecute with hTaken
      cases hExecute
      have hFresh : select DocumentRow.id record.id now.committed.documents = none := by
        simpa using hTaken
      have holding : Holding agent known record none [.insertDocument record]
          (now.stage agent [.insertDocument record]) :=
        hNow.hold durable hFound (by simp [Write.locks]) fun _ => ⟨by simp [Write.locks], hFresh⟩
      apply Safe.bind
      apply (safe_enqueue durable hSize hKey holding).mono
      intro outcome later hLater
      cases outcome with
      | error error => exact hLater
      | ok _ => exact Or.inr ⟨rfl, hLater⟩

/-- A registration that raised has left nothing, unless the answer to its commit was lost. -/
def Unregistered (agent : Nat) (known : Server → Prop) (record : DocumentRow) (now : Server) :
    Prop :=
  Idle agent known now ∨ now.transactions agent = [] ∧ ∃ event before, Announces event record ∧
    known before ∧ now.history =
      { agent, writes := [.insertDocument record, .insertOutbox (outboxRow event)]
        answered := false } :: before.history

/-- A registration leaves its content located, or raises and has left nothing, as far as its
commit was answered. -/
theorem safe_registerRecord (durable : Durable agent known) (idle : Idle agent known server)
    {size : Nat} {key : String} (hStatus : record.status = .uploaded)
    (hSize : record.sizeBytes = some size) (hKey : record.objectKey = some key)
    (hPermits : ∀ event, policy.permits (.register record event))
    (hObject : policy.objectsFirst → ∀ now, known now → (now.objects key).isSome) :
    (serialization policy).Safe agent (registerRecord record) (fun outcome now =>
      match outcome with
      | .ok document => now.transactions agent = [] ∧
          Located record.tenantId record.sha256 document.id now
      | .error _ => Unregistered agent known record now) server := by
  refine @safe_transaction policy agent known server _ _ (Registering agent known record) _
    durable idle ?_ ?_ ?_ ?_
  · intro now _ hIdle
    apply (safe_registerBody durable hIdle hSize hKey).mono
    intro outcome later hLater
    cases outcome with
    | ok document => exact hLater
    | error error => exact hLater
  · rintro document now later hRely (⟨hIdle, hLocated⟩ | ⟨hId, event, announces, holding⟩)
    · exact Or.inl ⟨hIdle.undisturbed durable hRely, hLocated.persists hRely.persists⟩
    · exact Or.inr ⟨hId, event, announces, holding.undisturbed durable hRely⟩
  · rintro document now serialized (⟨hIdle, hLocated⟩ | ⟨hId, event, announces, holding⟩)
    · refine ⟨hIdle.known, hIdle.permitted, ⟨finish_transactions agent _, ?_⟩, fun error => ?_⟩
      · rw [hIdle.publish]
        exact hLocated
      · rw [hIdle.publish]
        exact Or.inl (durable.finish hIdle.known)
    · obtain ⟨_, hFresh⟩ := holding.fresh rfl
      have hWrote : now.transactions agent ≠ [] := by
        rw [holding.writes]
        exact List.cons_ne_nil _ _
      refine ⟨holding.known, ?_, ⟨finish_transactions agent _, ?_⟩, fun error =>
        Or.inr ⟨finish_transactions agent _, event, now, announces, holding.known, ?_⟩⟩
      · intro _
        refine ⟨.register record event, hPermits event, ⟨hStatus, announces, ?_, ?_⟩,
          holding.writes, ?_⟩
        · rw [← serialized.replayed]
          exact holding.found
        · rw [← serialized.replayed]
          exact hFresh
        · intro hFirst other otherEvent hSame other' hOther
          cases hSame
          rw [hKey] at hOther
          cases hOther
          exact hObject hFirst now holding.known
      · -- The committed tables have the record at their end.
        refine ⟨record, ?_, rfl, rfl, hId.symm⟩
        have hCommitted : ((now.publish agent true).finish agent).committed =
            applyAll (now.transactions agent) now.committed := publish_committed
        rw [hCommitted, holding.writes]
        simp [Write.apply]
      · have hHistory : ((now.publish agent false).finish agent).history =
            { agent, writes := now.transactions agent, answered := false } :: now.history :=
          publish_history hWrote
        rw [hHistory, holding.writes]
  · exact fun _ _ hIdle => Or.inl hIdle

/-- An upload is registered under a new identifier and a time. -/
theorem safe_registerUpload (durable : Durable agent known) (idle : Idle agent known server)
    {tenantId filename sha256 : String} {mediaType : MediaType} {sizeBytes : Nat}
    {objectKey : String}
    (hPermits : ∀ id createdAt event, policy.permits (.register
      { id, tenantId, filename, sha256, mediaType, status := .uploaded,
        sizeBytes := some sizeBytes, objectKey := some objectKey, createdAt } event))
    (hObject : policy.objectsFirst → ∀ now, known now → (now.objects objectKey).isSome) :
    (serialization policy).Safe agent
      (registerUpload tenantId filename sha256 mediaType sizeBytes objectKey)
      (fun outcome now => match outcome with
        | .ok document => now.transactions agent = [] ∧ Located tenantId sha256 document.id now
        | .error _ => ∃ id createdAt, Unregistered agent known
            { id, tenantId, filename, sha256, mediaType, status := .uploaded,
              sizeBytes := some sizeBytes, objectKey := some objectKey, createdAt } now) server := by
  have hNothing {now : Server} (hIdle : Idle agent known now) : ∃ id createdAt,
      Unregistered agent known
        { id, tenantId, filename, sha256, mediaType, status := .uploaded,
          sizeBytes := some sizeBytes, objectKey := some objectKey, createdAt } now :=
    ⟨⟨0⟩, 0, Or.inl hIdle⟩
  apply Safe.bind
  apply safe_quiet (show Quiet .identifier from trivial)
  intro now hRely answer
  have hNow := idle.undisturbed durable hRely
  cases answer with
  | error error => exact hNothing hNow
  | ok id =>
      apply Safe.bind
      apply safe_quiet (show Quiet .clock from trivial)
      intro later hLater answer
      have hIdle := hNow.undisturbed durable hLater
      cases answer with
      | error error => exact hNothing hIdle
      | ok createdAt =>
          apply (safe_registerRecord durable hIdle rfl rfl rfl (hPermits id createdAt) hObject).mono
          intro outcome ended hEnded
          cases outcome with
          | ok document => exact hEnded
          | error error => exact ⟨id, createdAt, hEnded⟩

end Register

/-- Facts that every later commit leaves standing, an agent's own included. -/
def Lasting (known : Server → Prop) : Prop :=
  ∀ server next, Persists server.committed next.committed → server.history <:+ next.history →
    known server → known next

theorem Lasting.durable {known : Server → Prop} (lasting : Lasting known) (agent : Nat) :
    Durable agent known where
  undisturbed server next hNext hKnown := by
    obtain ⟨recent, hHistory, _⟩ := hNext.history
    exact lasting server next hNext.persists ⟨recent, hHistory.symm⟩ hKnown
  same server next hCommitted hHistory _ hKnown := by
    refine lasting server next ?_ ?_ hKnown
    · rw [hCommitted]
      exact Persists.refl _
    · exact ⟨[], hHistory.symm⟩

theorem Lasting.and {known other : Server → Prop} (h : Lasting known) (h' : Lasting other) :
    Lasting fun server => known server ∧ other server :=
  fun server next hPersists hHistory hKnown =>
    ⟨h server next hPersists hHistory hKnown.1, h' server next hPersists hHistory hKnown.2⟩

theorem lasting_located (tenantId sha256 : String) (id : UUID) :
    Lasting (Located tenantId sha256 id) :=
  fun _ _ hPersists _ hLocated => hLocated.persists hPersists

theorem lasting_outputStored (content : String × String) :
    Lasting fun server => OutputStored server.history content :=
  fun _ _ _ hHistory ⟨commit, hCommit, hStored⟩ => ⟨commit, hHistory.subset hCommit, hStored⟩

section Output
variable {policy : Policy} {agent : Nat} {known : Server → Prop} {server : Server}
  {record : DocumentRow} {base : Option DocumentRow}

/-- An agent's own commit only adds as well. -/
theorem publish_lasting (answered : Bool) (lasting : Lasting known) (serialized : Serialized policy server)
    (permitted : Permitted policy agent server .commit) (hKnown : known server) :
    Idle agent known ((server.publish agent answered).finish agent) := by
  have durable := lasting.durable agent
  apply durable.finish
  rcases publish_cases permitted with hSame | ⟨operation, _, enabled, hWrites, hHistory, _⟩
  · rw [hSame]
    exact hKnown
  · refine lasting server _ ?_ ?_ hKnown
    · rw [serialized.publish_apply enabled hWrites]
      exact persists_apply operation
    · rw [hHistory]
      exact List.suffix_cons _ _

/-- An update of a row's status by the row's own identifier. -/
theorem safe_markStatus (lasting : Lasting known) (idle : Idle agent known server)
    (tenantId : String) (documentId : UUID) (next : DocumentStatus) (error : Option String)
    (hPermits : policy.permits (.status tenantId documentId next error))
    (hProcessed : next = .processed → ∃ sha256, ∀ now, known now →
      Located tenantId sha256 documentId now ∧ OutputStored now.history (tenantId, sha256)) :
    (serialization policy).Safe agent (markStatus tenantId documentId next error)
      (fun _ now => Idle agent known now) server := by
  have durable := lasting.durable agent
  refine @safe_transaction policy agent known server _ _ (fun _ now => ∃ row,
      row.ownerKey = (tenantId, documentId) ∧ Holding agent known row (some row)
        [.replaceDocument (statusRow next error row)] now) _ durable idle ?_ ?_ ?_ ?_
  · intro now _ hIdle
    apply Safe.bind
    apply safe_execute
    intro later hRely serialized
    have hLater := hIdle.undisturbed durable hRely
    refine ⟨fun _ => hLater.known, fun time answer added hExecute => ?_⟩
    rw [hLater.view] at hExecute
    simp only [Statement.execute] at hExecute
    cases hFound : later.committed.findById tenantId documentId with
    | none =>
        rw [hFound] at hExecute
        cases hExecute
        exact (hLater.stage_nil durable).known
    | some row =>
        rw [hFound] at hExecute
        cases hExecute
        obtain ⟨hRow, hKey⟩ := select_mem hFound
        have unique := serialized.legal.unique
        rw [← serialized.replayed] at unique
        refine ⟨row, hKey, hLater.hold durable (unique.findByContent hRow) ?_ fun hNone => ?_⟩
        · simp [Write.locks, statusRow]
        · cases hNone
  · rintro _ now later hRely ⟨row, hKey, holding⟩
    exact ⟨row, hKey, holding.undisturbed durable hRely⟩
  · rintro _ now serialized ⟨row, hKey, holding⟩
    have unique := serialized.legal.unique
    rw [← serialized.replayed] at unique
    obtain ⟨hRow, _⟩ := select_mem holding.found
    have hFound : now.committed.findById tenantId documentId = some row := by
      have hById := unique.findById hRow
      cases hKey
      exact hById
    have permitted : Permitted policy agent now .commit := by
      intro _
      refine ⟨.status tenantId documentId next error, hPermits, ⟨row, ?_, fun hNext => ?_⟩, ?_, ?_⟩
      · rw [← serialized.replayed]
        exact hFound
      · obtain ⟨sha256, hKnown⟩ := hProcessed hNext
        obtain ⟨⟨found, hMem, hTenant, hDigest, hId⟩, hStored⟩ := hKnown now holding.known
        have hSame : found = row :=
          unique.eq_of_id hMem hRow (hId.trans (congrArg Prod.snd hKey).symm)
        subst hSame
        rw [DocumentRow.contentKey, hTenant, hDigest]
        exact hStored
      · rw [holding.writes, Operation.writes, hFound]
      · intro _ other event hOther
        cases hOther
    have hLasting (answered : Bool) := publish_lasting answered lasting serialized permitted holding.known
    exact ⟨holding.known, permitted, hLasting true, fun _ => hLasting false⟩
  · exact fun _ _ hIdle => hIdle

/-- What an upsert writes depends on the row it found only. -/
theorem writes_output_congr {uuid5 : UUID → String → UUID} {first second : Database}
    {record : StoredDocument} (now : Timestamp)
    (h : first.findByContent record.tenantId record.sha256 =
      second.findByContent record.tenantId record.sha256) :
    (Operation.output record now).writes uuid5 first =
      (Operation.output record now).writes uuid5 second := by
  simp only [Operation.writes, Operation.outputWrite, Operation.outputRow, h]

/-- The rows of one table are deleted, and inserted anew if there are any. -/
theorem safe_replaceChunks (durable : Durable agent known) {writes : List Write}
    (holding : Holding agent known record base writes server) (tenantId : String)
    (documentId : UUID) (chunks : List Chunk) :
    (serialization policy).Safe agent (replaceChunks policy.uuid5 tenantId documentId chunks)
      (fun outcome now => match outcome with
        | .ok _ => Holding agent known record base (writes ++ (.deleteChunks tenantId documentId ::
            if chunks.isEmpty then []
            else [.insertChunks (chunkRows policy.uuid5 tenantId documentId chunks)])) now
        | .error _ => known now) server := by
  apply Safe.bind
  have hDelete := @safe_write policy agent known server record base writes durable holding
    (.deleteChunks tenantId documentId) (.deleteChunks tenantId documentId)
    (fun database time answer added hExecute => by
      cases hExecute
      rfl)
  apply hDelete.mono
  intro outcome now hNow
  cases outcome with
  | error error => exact hNow
  | ok _ =>
      cases hEmpty : chunks.isEmpty with
      | true => exact hNow
      | false =>
          have hInsert := @safe_write policy agent known now record base _ durable hNow
            (.insertChunks (chunkRows policy.uuid5 tenantId documentId chunks))
            (.insertChunks (chunkRows policy.uuid5 tenantId documentId chunks))
            (fun database time answer added hExecute => by
              simp only [Statement.execute] at hExecute
              split_ifs at hExecute
              cases hExecute
              rfl)
          apply hInsert.mono
          intro outcome later hLater
          cases outcome with
          | error error => exact hLater
          | ok _ => simpa using hLater

theorem safe_replaceEntities (durable : Durable agent known) {writes : List Write}
    (holding : Holding agent known record base writes server) (tenantId : String)
    (documentId : UUID) (entities : List Entity) :
    (serialization policy).Safe agent (replaceEntities policy.uuid5 tenantId documentId entities)
      (fun outcome now => match outcome with
        | .ok _ => Holding agent known record base (writes ++
            (.deleteEntities tenantId documentId ::
              if entities.isEmpty then []
              else [.insertEntities (entityRows policy.uuid5 tenantId documentId entities)])) now
        | .error _ => known now) server := by
  apply Safe.bind
  have hDelete := @safe_write policy agent known server record base writes durable holding
    (.deleteEntities tenantId documentId) (.deleteEntities tenantId documentId)
    (fun database time answer added hExecute => by
      cases hExecute
      rfl)
  apply hDelete.mono
  intro outcome now hNow
  cases outcome with
  | error error => exact hNow
  | ok _ =>
      cases hEmpty : entities.isEmpty with
      | true => exact hNow
      | false =>
          have hInsert := @safe_write policy agent known now record base _ durable hNow
            (.insertEntities (entityRows policy.uuid5 tenantId documentId entities))
            (.insertEntities (entityRows policy.uuid5 tenantId documentId entities))
            (fun database time answer added hExecute => by
              simp only [Statement.execute] at hExecute
              split_ifs at hExecute
              cases hExecute
              rfl)
          apply hInsert.mono
          intro outcome later hLater
          cases outcome with
          | error error => exact hLater
          | ok _ => simpa using hLater

/-- Derived rows are replaced within the transaction that holds their document. -/
theorem safe_replace (durable : Durable agent known) {writes : List Write}
    (holding : Holding agent known record base writes server) (dimension : Nat)
    (tenantId : String) (documentId : UUID) (chunks : List Chunk) (entities : List Entity) :
    (serialization policy).Safe agent
      (replace policy.uuid5 dimension tenantId documentId chunks entities)
      (fun outcome now => match outcome with
        | .ok _ => Holding agent known record base
            (writes ++ childWrites policy.uuid5 tenantId documentId chunks entities) now
        | .error _ => known now) server := by
  rw [replace]
  cases chunks.forM fun chunk => validateVector (chunk.embedding.getD []) dimension with
  | error error => exact holding.known
  | ok _ =>
      apply Safe.bind
      apply (safe_replaceChunks durable holding tenantId documentId chunks).mono
      intro outcome now hNow
      cases outcome with
      | error error => exact hNow
      | ok _ =>
          apply (safe_replaceEntities durable hNow tenantId documentId entities).mono
          intro outcome later hLater
          cases outcome with
          | error error => exact hLater
          | ok _ =>
              rw [childWrites, ← List.append_assoc]
              exact hLater

/-- The statement of an upsert takes the row of its content, or inserts it. -/
theorem safe_upsertRow (durable : Durable agent known) (idle : Idle agent known server)
    (record : DocumentRow) :
    (serialization policy).Safe agent (execute (.upsertDocument record))
      (fun outcome now => match outcome with
        | .ok row => ∃ time base, row = Operation.outputRow now.committed record time ∧
            Holding agent known record base [Operation.outputWrite now.committed record time] now
        | .error _ => known now) server := by
  apply safe_execute
  intro now hRely _
  have hNow := idle.undisturbed durable hRely
  refine ⟨fun _ => hNow.known, fun time answer added hExecute => ?_⟩
  rw [hNow.view] at hExecute
  simp only [Statement.execute] at hExecute
  have hCommitted (added : List Write) : (now.stage agent added).committed = now.committed := rfl
  cases hFound : now.committed.findByContent record.tenantId record.sha256 with
  | some row =>
      rw [hFound] at hExecute
      cases hExecute
      obtain ⟨_, hKey⟩ := select_mem hFound
      refine ⟨time, some row, ?_, ?_⟩
      · rw [hCommitted, Operation.outputRow, hFound]
      · rw [hCommitted, Operation.outputWrite, hFound]
        refine hNow.hold durable hFound ?_ fun hNone => ?_
        · have hTenant : row.tenantId = record.tenantId := congrArg Prod.fst hKey
          have hDigest : row.sha256 = record.sha256 := congrArg Prod.snd hKey
          simp [Write.locks, replacedRow, hTenant, hDigest]
        · cases hNone
  | none =>
      rw [hFound] at hExecute
      simp only at hExecute
      split_ifs at hExecute with hTaken
      cases hExecute
      have hFresh : select DocumentRow.id record.id now.committed.documents = none := by
        simpa using hTaken
      refine ⟨time, none, ?_, ?_⟩
      · rw [hCommitted, Operation.outputRow, hFound]
      · rw [hCommitted, Operation.outputWrite, hFound]
        exact hNow.hold durable hFound (by simp [Write.locks, insertedRow]) fun _ =>
          ⟨by simp [Write.locks, insertedRow], hFresh⟩

/-- The transaction of an upsert commits its row with all of its derived rows. -/
theorem safe_storeRecord (lasting : Lasting known) (idle : Idle agent known server)
    {record : StoredDocument} (prepared : Prepared record)
    (hPermits : ∀ now, policy.permits (.output record now)) (dimension : Nat) :
    (serialization policy).Safe agent
      (transaction do
        let row ← execute (.upsertDocument record.toDocumentRow)
        replace policy.uuid5 dimension record.tenantId row.id record.chunks record.entities
        pure ({ row with chunks := record.chunks, entities := record.entities } : StoredDocument))
      (fun outcome now => Idle agent known now ∧ ∀ stored, outcome = .ok stored →
        OutputStored now.history record.contentKey) server := by
  have durable := lasting.durable agent
  refine @safe_transaction policy agent known server _ _ (fun _ now => ∃ time base,
      Holding agent known record.toDocumentRow base
        ((Operation.output record time).writes policy.uuid5 now.committed) now) _
    durable idle ?_ ?_ ?_ ?_
  · intro now _ hIdle
    apply Safe.bind
    apply (safe_upsertRow durable hIdle record.toDocumentRow).mono
    intro outcome first hFirst
    cases outcome with
    | error error => exact hFirst
    | ok row =>
        obtain ⟨time, base, hRow, holding⟩ := hFirst
        apply Safe.bind
        apply (safe_replace durable holding dimension record.tenantId row.id record.chunks
          record.entities).mono
        intro outcome second hSecond
        cases outcome with
        | error error => exact hSecond
        | ok _ =>
            -- The row is locked since, so the same writes are still an upsert's.
            have hWrites := @writes_output_congr policy.uuid5 first.committed second.committed
              record time (holding.found.trans hSecond.found.symm)
            refine ⟨time, base, ?_⟩
            rw [← hWrites, Operation.writes, ← hRow]
            exact hSecond
  · rintro _ now later hRely ⟨time, base, holding⟩
    have hLater := holding.undisturbed durable hRely
    refine ⟨time, base, ?_⟩
    rw [← writes_output_congr time (holding.found.trans hLater.found.symm)]
    exact hLater
  · rintro _ now serialized ⟨time, base, holding⟩
    have hBase : base = (replay now.history).findByContent record.tenantId record.sha256 := by
      rw [← serialized.replayed]
      exact holding.found.symm
    have permitted : Permitted policy agent now .commit := by
      intro _
      refine ⟨.output record time, hPermits time, ⟨prepared, fun hAbsent => ?_⟩, holding.writes,
        fun _ other event hOther => by cases hOther⟩
      rw [← serialized.replayed]
      exact (holding.fresh (hBase.trans hAbsent)).2
    have hLasting (answered : Bool) := publish_lasting answered lasting serialized permitted holding.known
    refine ⟨holding.known, permitted, ⟨hLasting true, fun _ _ => ?_⟩, fun error =>
      ⟨hLasting false, fun stored hStored => by cases hStored⟩⟩
    have hWrote : now.transactions agent ≠ [] := by
      rw [holding.writes, Operation.writes]
      exact List.cons_ne_nil _ _
    have hHistory : ((now.publish agent true).finish agent).history =
        { agent, writes := now.transactions agent } :: now.history := publish_history hWrote
    rw [hHistory, outputStored_cons]
    exact Or.inl (by rw [holding.writes, storedContent_writes])
  · exact fun error now hIdle => ⟨hIdle, fun stored hStored => by cases hStored⟩

/-- An upsert returns only once its output is stored. -/
theorem safe_upsertDocument (lasting : Lasting known) (idle : Idle agent known server)
    (hPermits : ∀ record now, policy.permits (.output record now)) (dimension : Nat)
    (tenantId filename : String) (document : Document) :
    (serialization policy).Safe agent
      (upsertDocument policy.uuid5 dimension tenantId filename document)
      (fun outcome now => Idle agent known now ∧ ∀ stored, outcome = .ok stored →
        OutputStored now.history (tenantId, document.sha256)) server := by
  have durable := lasting.durable agent
  have hRaised {outcome : Except Failure StoredDocument} {error : Failure} {now : Server}
      (hOutcome : outcome = .error error) (hIdle : Idle agent known now) :
      Idle agent known now ∧ ∀ stored, outcome = .ok stored →
        OutputStored now.history (tenantId, document.sha256) :=
    ⟨hIdle, fun stored hStored => by
      rw [hOutcome] at hStored
      cases hStored⟩
  apply Safe.bind
  apply safe_quiet (show Quiet .identifier from trivial)
  intro first hFirst answer
  have hIdleFirst := idle.undisturbed durable hFirst
  cases answer with
  | error error => exact hRaised rfl hIdleFirst
  | ok id =>
      apply Safe.bind
      apply safe_quiet (show Quiet .clock from trivial)
      intro second hSecond answer
      have hIdleSecond := hIdleFirst.undisturbed durable hSecond
      cases answer with
      | error error => exact hRaised rfl hIdleSecond
      | ok created =>
          simp only
          cases hPrepare : prepareDocument tenantId filename document id created with
          | error error => exact hRaised rfl hIdleSecond
          | ok record =>
              have hRecord := prepareDocument_ok hPrepare
              have hKey : record.contentKey = (tenantId, document.sha256) := by
                rw [hRecord]
                rfl
              have hTenant : record.tenantId = tenantId := by rw [hRecord]
              have prepared : Prepared record :=
                ⟨tenantId, filename, document, id, created, hPrepare⟩
              rw [← hKey, ← hTenant]
              exact safe_storeRecord lasting hIdleSecond prepared (hPermits record) dimension

end Output

end DocInsight.Storage
