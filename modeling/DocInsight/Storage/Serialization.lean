import DocInsight.Storage.Transactions

/-! Interleaved transactions commit as if each ran alone: a transaction that commits the
writes of an operation, with the locks it took for them, commits that operation. -/
namespace DocInsight.Storage

open DocInsight.Contracts DocInsight.Worker Interaction Table

/-- What agents are held to: the operations they may commit, the objects they may store,
and whether the object of a registration has to be there first. -/
structure Policy where
  uuid5 : UUID → String → UUID
  permits : Operation → Prop := fun _ => True
  keeps : String → Bytes → Prop := fun _ _ => False
  objectsFirst : Prop := False

/-- The invariant of the server: the tables are what the commits left, each of which was
an operation, and open transactions hold the locks of what they write. -/
structure Serialized (policy : Policy) (server : Server) : Prop where
  replayed : server.committed = replay server.history
  legal : Legal policy.uuid5 policy.permits server.history
  held : ∀ agent, ∀ write ∈ server.transactions agent, ∀ lock ∈ write.locks,
    (agent, lock) ∈ server.locks
  exclusive : ∀ agent other lock, (agent, lock) ∈ server.locks → (other, lock) ∈ server.locks →
    agent = other
  objects : ∀ key data, server.objects key = some data → policy.keeps key data
  stored : policy.objectsFirst → ∀ row ∈ server.committed.documents, ∀ key,
    row.objectKey = some key → (server.objects key).isSome

/-- What an agent must know before a call. -/
def Permitted (policy : Policy) (agent : Nat) (server : Server) : Call → Prop
  | .commit => server.transactions agent ≠ [] →
      ∃ operation : Operation, policy.permits operation ∧ operation.Enabled server.history ∧
        server.transactions agent = operation.writes policy.uuid5 server.committed ∧
        (policy.objectsFirst → ∀ record event, operation = .register record event →
          ∀ key, record.objectKey = some key → (server.objects key).isSome)
  | .putObject key stream size => size ≤ stream.length → policy.keeps key (stream.take size)
  | _ => True

/-- What others leave alone: an agent's transaction with its locks, what it has locked, that
objects are stored and the identity of documents. Their commits are added to the history. -/
structure Undisturbed (agent : Nat) (server next : Server) : Prop where
  transaction : next.transactions agent = server.transactions agent
  locks : ∀ lock, (agent, lock) ∈ next.locks ↔ (agent, lock) ∈ server.locks
  history : ∃ recent, next.history = recent ++ server.history ∧
    ∀ commit ∈ recent, commit.agent ≠ agent
  contents : ∀ tenantId sha256, (agent, .content tenantId sha256) ∈ server.locks →
    next.committed.findByContent tenantId sha256 = server.committed.findByContent tenantId sha256
  fresh : ∀ id, (agent, .document id) ∈ server.locks →
    select DocumentRow.id id server.committed.documents = none →
    select DocumentRow.id id next.committed.documents = none
  objects : ∀ key, (server.objects key).isSome → (next.objects key).isSome
  persists : Persists server.committed next.committed

namespace Undisturbed

variable {agent : Nat} {server next later : Server}

/-- Tables that stay as they are disturb nobody. -/
theorem of_same (hTransaction : next.transactions agent = server.transactions agent)
    (hLocks : ∀ lock, (agent, lock) ∈ next.locks ↔ (agent, lock) ∈ server.locks)
    (hHistory : next.history = server.history) (hCommitted : next.committed = server.committed)
    (hObjects : ∀ key, (server.objects key).isSome → (next.objects key).isSome) :
    Undisturbed agent server next where
  transaction := hTransaction
  locks := hLocks
  history := ⟨[], by rw [hHistory, List.nil_append], by simp⟩
  contents _ _ _ := by rw [hCommitted]
  fresh _ _ h := by
    rw [hCommitted]
    exact h
  objects := hObjects
  persists := by
    rw [hCommitted]
    exact Persists.refl _

theorem refl (agent : Nat) (server : Server) : Undisturbed agent server server :=
  of_same rfl (fun _ => Iff.rfl) rfl rfl fun _ h => h

theorem trans (h : Undisturbed agent server next) (h' : Undisturbed agent next later) :
    Undisturbed agent server later where
  transaction := h'.transaction.trans h.transaction
  locks lock := (h'.locks lock).trans (h.locks lock)
  history := by
    obtain ⟨recent, hRecent, hAgents⟩ := h.history
    obtain ⟨newer, hNewer, hAgents'⟩ := h'.history
    refine ⟨newer ++ recent, by rw [hNewer, hRecent, List.append_assoc], fun commit hCommit => ?_⟩
    rcases List.mem_append.mp hCommit with hMem | hMem
    · exact hAgents' commit hMem
    · exact hAgents commit hMem
  contents tenantId sha256 hLock :=
    (h'.contents tenantId sha256 ((h.locks _).mpr hLock)).trans (h.contents tenantId sha256 hLock)
  fresh id hLock hFresh := h'.fresh id ((h.locks _).mpr hLock) (h.fresh id hLock hFresh)
  objects key hStored := h'.objects key (h.objects key hStored)
  persists := h.persists.trans h'.persists

end Undisturbed

section Frame
variable {database : Database} {tenantId sha256 : String}

/-- A write leaves content alone that it does not lock. -/
theorem findByContent_apply {write : Write} (h : .content tenantId sha256 ∉ write.locks) :
    (write.apply database).findByContent tenantId sha256 =
      database.findByContent tenantId sha256 := by
  have hKey {row : DocumentRow} (hLock : Lock.content tenantId sha256 ≠
      .content row.tenantId row.sha256) : row.contentKey ≠ (tenantId, sha256) := by
    intro hSame
    cases hSame
    exact hLock rfl
  cases write with
  | insertDocument row =>
      have hRow := hKey (fun hSame => h (hSame ▸ List.mem_cons_self ..))
      exact select_append_of_ne database.documents hRow
  | replaceDocument row =>
      have hRow := hKey (fun hSame => h (hSame ▸ List.mem_cons_self ..))
      rw [Database.findByContent, Write.apply, select_updateWhere _ _ fun old hOld =>
        (of_decide_eq_true hOld).symm, Database.findByContent]
      cases hFound : select DocumentRow.contentKey (tenantId, sha256) database.documents with
      | none => rfl
      | some found =>
          have hFoundKey := (select_mem hFound).2
          rw [Option.map_some, if_neg]
          simpa [hFoundKey] using Ne.symm hRow
  | deleteChunks | insertChunks | deleteEntities | insertEntities | insertOutbox => rfl

theorem findByContent_applyAll {writes : List Write}
    (h : ∀ write ∈ writes, .content tenantId sha256 ∉ write.locks) :
    (applyAll writes database).findByContent tenantId sha256 =
      database.findByContent tenantId sha256 := by
  induction writes generalizing database with
  | nil => rfl
  | cons write writes ih =>
      rw [applyAll_cons, ih fun other hOther => h other (List.mem_cons_of_mem _ hOther)]
      exact findByContent_apply (h write (List.mem_cons_self ..))

/-- A write adds identifiers of documents only where it locks them, and otherwise replaces
rows; the writes of an operation replace them by rows of the same identity. -/
theorem Operation.fresh_apply {uuid5 : UUID → String → UUID} {operation : Operation} {id : UUID}
    (hLock : ∀ write ∈ operation.writes uuid5 database, .document id ∉ write.locks)
    (hFresh : select DocumentRow.id id database.documents = none) :
    select DocumentRow.id id (operation.apply uuid5 database).documents = none := by
  have hInserted {row : DocumentRow} {write : Write} (hRow : write = .insertDocument row)
      (hWrite : write ∈ operation.writes uuid5 database) : row.id ≠ id := by
    rintro rfl
    apply hLock write hWrite
    rw [hRow]
    simp [Write.locks]
  have hUpdated {condition : DocumentRow → Bool} {change : DocumentRow → DocumentRow}
      (hChange : ∀ row, SameIdentity row (change row)) :
      select DocumentRow.id id (updateWhere condition change database.documents) = none := by
    rw [select_updateWhere _ _ fun row _ => (hChange row).id, hFresh, Option.map_none]
  cases operation with
  | register record event =>
      rw [Operation.apply, Database.register]
      cases database.findByContent record.tenantId record.sha256 with
      | some row => exact hFresh
      | none =>
          have hNe := hInserted rfl (List.mem_cons_self ..)
          exact (select_append_of_ne database.documents hNe).trans hFresh
  | output record now =>
      rw [Operation.apply, Database.upsertDocument_documents, Database.upsertRow]
      cases hFound : database.findByContent record.tenantId record.sha256 with
      | some row => exact hUpdated fun row => sameIdentity_replacedRow _ now row
      | none =>
          have hWrite : Operation.outputWrite database record.toDocumentRow now =
              .insertDocument (insertedRow record.toDocumentRow now) := by
            rw [Operation.outputWrite, hFound]
          have hNe := hInserted hWrite (List.mem_cons_self ..)
          exact (select_append_of_ne database.documents hNe).trans hFresh
  | status tenantId documentId next error =>
      exact hUpdated fun row => sameIdentity_statusRow next error row

end Frame

section Effects
variable {policy : Policy} {server : Server} {agent : Nat}

/-- Every call but these four leaves the server as it is. -/
theorem perform_cases {request : Call} {choice : Choice} {answer : Except Failure (Response request)}
    {next : Server} (h : server.perform agent request choice = some (answer, next)) :
    next = server ∨
    (∃ statement writes, request = .execute statement ∧
      server.blocked agent (writes.flatMap Write.locks) = false ∧
      next = server.stage agent writes) ∨
    (request = .commit ∧ next = (server.publish agent choice.failure.isNone).finish agent) ∨
    next = server.finish agent ∨
    (∃ key stream size, request = .putObject key stream size ∧ size ≤ stream.length ∧
      next = server.putObject key stream size) := by
  cases request with
  | execute statement =>
      cases hFailure : choice.failure with
      | some error =>
          simp only [Server.perform, hFailure] at h
          cases h
          exact Or.inl rfl
      | none =>
          simp only [Server.perform, hFailure] at h
          split at h
          · cases h
            exact Or.inl rfl
          · rename_i writes _
            split_ifs at h with hBlocked
            cases h
            exact Or.inr (Or.inl ⟨statement, writes, rfl, by simpa using hBlocked, rfl⟩)
  | commit =>
      cases hFailure : choice.failure with
      | some error =>
          simp only [Server.perform, hFailure] at h
          split_ifs at h
          · cases h
            exact Or.inr (Or.inr (Or.inl ⟨rfl, rfl⟩))
          · cases h
            exact Or.inr (Or.inr (Or.inr (Or.inl rfl)))
      | none =>
          simp only [Server.perform, hFailure] at h
          cases h
          exact Or.inr (Or.inr (Or.inl ⟨rfl, rfl⟩))
  | putObject key stream size =>
      cases hFailure : choice.failure with
      | some error =>
          simp only [Server.perform, hFailure] at h
          split_ifs at h with hStored
          · cases h
            exact Or.inr (Or.inr (Or.inr (Or.inr ⟨key, stream, size, rfl, hStored.2, rfl⟩)))
          · cases h
            exact Or.inl rfl
      | none =>
          simp only [Server.perform, hFailure] at h
          split_ifs at h with hShort
          · cases h
            exact Or.inl rfl
          · cases h
            exact Or.inr (Or.inr (Or.inr (Or.inr
              ⟨key, stream, size, rfl, Nat.le_of_not_lt hShort, rfl⟩)))
  | rollback =>
      cases hFailure : choice.failure <;>
      · simp only [Server.perform, hFailure] at h
        cases h
        exact Or.inr (Or.inr (Or.inr (Or.inl rfl)))
  | begin | identifier | clock | outside | stream =>
      cases hFailure : choice.failure <;>
      · simp only [Server.perform, hFailure] at h
        cases h
        exact Or.inl rfl

theorem mem_stage_locks {other : Nat} {lock : Lock} {writes : List Write} :
    (other, lock) ∈ (server.stage agent writes).locks ↔
      other = agent ∧ lock ∈ writes.flatMap Write.locks ∨ (other, lock) ∈ server.locks := by
  simp only [Server.stage, List.mem_append, List.mem_map, Prod.mk.injEq]
  constructor
  · rintro (⟨_, hLock, rfl, rfl⟩ | hOld)
    · exact Or.inl ⟨rfl, hLock⟩
    · exact Or.inr hOld
  · rintro (⟨rfl, hLock⟩ | hOld)
    · exact Or.inl ⟨lock, hLock, rfl, rfl⟩
    · exact Or.inr hOld

theorem mem_finish_locks {other : Nat} {lock : Lock} :
    (other, lock) ∈ (server.finish agent).locks ↔ (other, lock) ∈ server.locks ∧ other ≠ agent := by
  simp [Server.finish]

theorem stage_transactions (agent : Nat) (writes : List Write) (server : Server) :
    (server.stage agent writes).transactions agent = server.transactions agent ++ writes :=
  Function.update_self ..

theorem stage_transactions_of_ne {other : Nat} (hOther : other ≠ agent) (writes : List Write) :
    (server.stage agent writes).transactions other = server.transactions other :=
  Function.update_of_ne hOther ..

theorem finish_transactions (agent : Nat) (server : Server) :
    (server.finish agent).transactions agent = [] :=
  Function.update_self ..

theorem finish_transactions_of_ne {other : Nat} (hOther : other ≠ agent) :
    (server.finish agent).transactions other = server.transactions other :=
  Function.update_of_ne hOther ..

/-- A statement that no other transaction blocks takes its locks. -/
theorem Serialized.stage (serialized : Serialized policy server) {writes : List Write}
    (hFree : server.blocked agent (writes.flatMap Write.locks) = false) :
    Serialized policy (server.stage agent writes) := by
  refine ⟨serialized.replayed, serialized.legal, ?_, ?_, serialized.objects, serialized.stored⟩
  · intro other write hWrite lock hLock
    rw [mem_stage_locks]
    by_cases hOther : other = agent
    · subst hOther
      rw [stage_transactions] at hWrite
      rcases List.mem_append.mp hWrite with hOld | hNew
      · exact Or.inr (serialized.held other write hOld lock hLock)
      · exact Or.inl ⟨rfl, List.mem_flatMap.mpr ⟨write, hNew, hLock⟩⟩
    · rw [stage_transactions_of_ne hOther] at hWrite
      exact Or.inr (serialized.held other write hWrite lock hLock)
  · have hTaken {other : Nat} {lock : Lock} (hLock : lock ∈ writes.flatMap Write.locks)
        (hHeld : (other, lock) ∈ server.locks) : other = agent := by
      by_contra hOther
      have hNone := List.any_eq_false.mp hFree (other, lock) hHeld
      exact hNone (decide_eq_true ⟨hOther, hLock⟩)
    intro first second lock hFirst hSecond
    rcases mem_stage_locks.mp hFirst with ⟨hAgent, hLock⟩ | hFirst
    · rcases mem_stage_locks.mp hSecond with ⟨hAgent', _⟩ | hSecond
      · exact hAgent.trans hAgent'.symm
      · exact hAgent.trans (hTaken hLock hSecond).symm
    · rcases mem_stage_locks.mp hSecond with ⟨hAgent', hLock⟩ | hSecond
      · exact (hTaken hLock hFirst).trans hAgent'.symm
      · exact serialized.exclusive first second lock hFirst hSecond

theorem undisturbed_stage {other : Nat} (hOther : other ≠ agent) (writes : List Write) :
    Undisturbed other server (server.stage agent writes) := by
  apply Undisturbed.of_same (stage_transactions_of_ne hOther writes) _ rfl rfl fun _ h => h
  intro lock
  rw [mem_stage_locks]
  constructor
  · rintro (⟨hAgent, _⟩ | hOld)
    · exact absurd hAgent hOther
    · exact hOld
  · exact Or.inr

/-- Ending a transaction releases its own locks only. -/
theorem Serialized.finish (serialized : Serialized policy server) (agent : Nat) :
    Serialized policy (server.finish agent) := by
  refine ⟨serialized.replayed, serialized.legal, ?_, ?_, serialized.objects, serialized.stored⟩
  · intro other write hWrite lock hLock
    by_cases hOther : other = agent
    · subst hOther
      rw [finish_transactions] at hWrite
      cases hWrite
    · rw [finish_transactions_of_ne hOther] at hWrite
      exact mem_finish_locks.mpr ⟨serialized.held other write hWrite lock hLock, hOther⟩
  · intro first second lock hFirst hSecond
    exact serialized.exclusive first second lock (mem_finish_locks.mp hFirst).1
      (mem_finish_locks.mp hSecond).1

theorem undisturbed_finish {other : Nat} (hOther : other ≠ agent) :
    Undisturbed other server (server.finish agent) := by
  apply Undisturbed.of_same (finish_transactions_of_ne hOther) _ rfl rfl fun _ h => h
  intro lock
  rw [mem_finish_locks]
  exact and_iff_left hOther

/-- A put stores an object, and takes none away. -/
theorem putObject_isSome {key other : String} (stream : Bytes) (size : Nat)
    (hStored : (server.objects other).isSome) :
    ((server.putObject key stream size).objects other).isSome := by
  by_cases hKey : other = key
  · simp [Server.putObject, hKey]
  · simpa [Server.putObject, hKey] using hStored

theorem Serialized.putObject (serialized : Serialized policy server) {key : String}
    {stream : Bytes} {size : Nat} (hKeeps : policy.keeps key (stream.take size)) :
    Serialized policy (server.putObject key stream size) := by
  refine ⟨serialized.replayed, serialized.legal, serialized.held, serialized.exclusive, ?_, ?_⟩
  · intro other data hData
    by_cases hKey : other = key
    · subst hKey
      simp only [Server.putObject, Function.update_self, Option.some.injEq] at hData
      exact hData ▸ hKeeps
    · simp only [Server.putObject, Function.update_of_ne hKey] at hData
      exact serialized.objects other data hData
  · intro hFirst row hRow other hOther
    exact putObject_isSome stream size (serialized.stored hFirst row hRow other hOther)

theorem undisturbed_putObject (agent : Nat) (key : String) (stream : Bytes) (size : Nat) :
    Undisturbed agent server (server.putObject key stream size) :=
  Undisturbed.of_same rfl (fun _ => Iff.rfl) rfl rfl fun _ hStored =>
    putObject_isSome stream size hStored

end Effects

section Commit
variable {policy : Policy} {server : Server} {agent : Nat} {answered : Bool}

@[simp] theorem publish_objects : (server.publish agent answered).objects = server.objects := by
  rw [Server.publish]
  split <;> rfl

@[simp] theorem publish_locks : (server.publish agent answered).locks = server.locks := by
  rw [Server.publish]
  split <;> rfl

@[simp] theorem publish_transactions :
    (server.publish agent answered).transactions = server.transactions := by
  rw [Server.publish]
  split <;> rfl

theorem publish_committed : (server.publish agent answered).committed =
    applyAll (server.transactions agent) server.committed := by
  rw [Server.publish]
  split
  · rename_i hEmpty
    rw [List.isEmpty_iff.mp hEmpty]
    rfl
  · rfl

/-- What a permitted commit adds to the history: nothing, or an operation. -/
theorem publish_cases (permitted : Permitted policy agent server .commit) :
    server.publish agent answered = server ∨ ∃ operation : Operation, policy.permits operation ∧
      operation.Enabled server.history ∧
      server.transactions agent = operation.writes policy.uuid5 server.committed ∧
      (server.publish agent answered).history =
        { agent, writes := server.transactions agent, answered } :: server.history ∧
      (policy.objectsFirst → ∀ record event, operation = .register record event →
        ∀ key, record.objectKey = some key → (server.objects key).isSome) := by
  by_cases hNone : server.transactions agent = []
  · refine Or.inl ?_
    rw [Server.publish, if_pos (List.isEmpty_iff.mpr hNone)]
  · obtain ⟨operation, hPermits, enabled, hWrites, hObjects⟩ := permitted hNone
    refine Or.inr ⟨operation, hPermits, enabled, hWrites, ?_, hObjects⟩
    rw [Server.publish, if_neg fun h => hNone (List.isEmpty_iff.mp h)]

/-- A commit of an operation's writes has the operation's effect. -/
theorem Serialized.publish_apply (serialized : Serialized policy server) {operation : Operation}
    (enabled : operation.Enabled server.history)
    (hWrites : server.transactions agent = operation.writes policy.uuid5 server.committed) :
    (server.publish agent answered).committed = operation.apply policy.uuid5 server.committed := by
  rw [publish_committed, hWrites, serialized.replayed]
  exact enabled.applyAll_writes serialized.legal.unique

/-- The rows after an operation: those before with their identity, and the one it inserts,
which has an object only when it is registered. -/
theorem mem_apply_documents {uuid5 : UUID → String → UUID} {database : Database}
    {operation : Operation} {row : DocumentRow}
    (hRow : row ∈ (operation.apply uuid5 database).documents) :
    (∃ old ∈ database.documents, SameIdentity old row) ∨
      (∃ event, operation = .register row event) ∨ row.objectKey = none := by
  have hUpdated {condition : DocumentRow → Bool} {change : DocumentRow → DocumentRow}
      (hChange : ∀ row, SameIdentity row (change row))
      (hMem : row ∈ updateWhere condition change database.documents) :
      ∃ old ∈ database.documents, SameIdentity old row := by
    obtain ⟨old, hOld, rfl⟩ := mem_updateWhere.mp hMem
    refine ⟨old, hOld, ?_⟩
    split_ifs
    · exact hChange old
    · exact SameIdentity.refl old
  cases operation with
  | register record event =>
      rw [Operation.apply, Database.register] at hRow
      cases hFound : database.findByContent record.tenantId record.sha256 with
      | some found =>
          rw [hFound] at hRow
          exact Or.inl ⟨row, hRow, SameIdentity.refl row⟩
      | none =>
          rw [hFound] at hRow
          rcases List.mem_append.mp hRow with hOld | hNew
          · exact Or.inl ⟨row, hOld, SameIdentity.refl row⟩
          · cases List.mem_singleton.mp hNew
            exact Or.inr (Or.inl ⟨event, rfl⟩)
  | output record now =>
      rw [Operation.apply, Database.upsertDocument_documents, Database.upsertRow] at hRow
      cases hFound : database.findByContent record.tenantId record.sha256 with
      | some found =>
          rw [hFound] at hRow
          exact Or.inl (hUpdated (fun old => sameIdentity_replacedRow _ now old) hRow)
      | none =>
          rw [hFound] at hRow
          rcases List.mem_append.mp hRow with hOld | hNew
          · exact Or.inl ⟨row, hOld, SameIdentity.refl row⟩
          · cases List.mem_singleton.mp hNew
            exact Or.inr (Or.inr rfl)
  | status tenantId documentId next error =>
      exact Or.inl (hUpdated (fun old => sameIdentity_statusRow next error old) hRow)

theorem Serialized.publish (serialized : Serialized policy server)
    (permitted : Permitted policy agent server .commit) :
    Serialized policy (server.publish agent answered) := by
  rcases publish_cases permitted with
    hSame | ⟨operation, hPermits, enabled, hWrites, hHistory, hStored⟩
  · rw [hSame]
    exact serialized
  · refine ⟨?_, ?_, ?_, ?_, ?_, ?_⟩
    · rw [publish_committed, hHistory, replay, serialized.replayed]
    · rw [hHistory]
      refine ⟨⟨operation, hPermits, enabled, ?_⟩, serialized.legal⟩
      rw [← serialized.replayed]
      exact hWrites
    · rw [publish_transactions, publish_locks]
      exact serialized.held
    · rw [publish_locks]
      exact serialized.exclusive
    · rw [publish_objects]
      exact serialized.objects
    · intro hFirst row hRow key hKey
      rw [publish_objects]
      rw [serialized.publish_apply enabled hWrites] at hRow
      rcases mem_apply_documents hRow with ⟨old, hOld, hSame⟩ | ⟨event, hRegister⟩ | hNone
      · exact serialized.stored hFirst old hOld key (hSame.objectKey.symm.trans hKey)
      · exact hStored hFirst row event hRegister key hKey
      · rw [hNone] at hKey
        cases hKey

/-- A commit leaves alone whatever another transaction has locked. -/
theorem undisturbed_publish (serialized : Serialized policy server)
    (permitted : Permitted policy agent server .commit) {other : Nat} (hOther : other ≠ agent) :
    Undisturbed other server (server.publish agent answered) := by
  rcases publish_cases permitted with hSame | ⟨operation, _, enabled, hWrites, hHistory, _⟩
  · rw [hSame]
    exact Undisturbed.refl other server
  · have hFree {lock : Lock} (hLock : (other, lock) ∈ server.locks) :
        ∀ write ∈ server.transactions agent, lock ∉ write.locks := by
      intro write hWrite hMem
      exact hOther (serialized.exclusive other agent lock hLock
        (serialized.held agent write hWrite lock hMem))
    have hApply : (server.publish agent answered).committed =
        operation.apply policy.uuid5 server.committed := serialized.publish_apply enabled hWrites
    refine ⟨by rw [publish_transactions], fun lock => by rw [publish_locks],
      ⟨[{ agent, writes := server.transactions agent, answered }], hHistory, ?_⟩, ?_, ?_,
      fun key hStored => by rwa [publish_objects], ?_⟩
    · intro commit hCommit
      rw [List.mem_singleton.mp hCommit]
      exact hOther.symm
    · intro tenantId sha256 hLock
      rw [publish_committed]
      exact findByContent_applyAll (hFree hLock)
    · intro id hLock hFresh
      rw [hApply]
      refine Operation.fresh_apply (fun write hWrite => ?_) hFresh
      rw [← hWrites] at hWrite
      exact hFree hLock write hWrite
    · rw [hApply]
      exact persists_apply operation

end Commit

/-- Transactions, one statement at a time, under a policy. -/
def serialization (policy : Policy) : Discipline environment where
  Inv := Serialized policy
  Guard := Permitted policy
  Rely := Undisturbed
  rely_refl := Undisturbed.refl
  rely_trans _ _ _ _ h h' := h.trans h'
  call_inv agent server request choice answer next serialized permitted h := by
    rcases perform_cases h with rfl | ⟨_, writes, _, hFree, rfl⟩ | ⟨rfl, rfl⟩ | rfl |
      ⟨key, stream, size, rfl, hSize, rfl⟩
    · exact serialized
    · exact serialized.stage hFree
    · exact (serialized.publish permitted).finish agent
    · exact serialized.finish agent
    · exact serialized.putObject (permitted hSize)
  call_rely agent other server request choice answer next hOther serialized permitted h := by
    rcases perform_cases h with rfl | ⟨_, writes, _, _, rfl⟩ | ⟨rfl, rfl⟩ | rfl |
      ⟨key, stream, size, rfl, hSize, rfl⟩
    · exact Undisturbed.refl other _
    · exact undisturbed_stage hOther writes
    · exact (undisturbed_publish serialized permitted hOther).trans (undisturbed_finish hOther)
    · exact undisturbed_finish hOther
    · exact undisturbed_putObject other key stream size
  event_inv _ event := nomatch event
  event_rely _ _ event := nomatch event
  crash_inv agent _ serialized := serialized.finish agent
  crash_rely _ _ _ hOther _ := undisturbed_finish hOther

/-- The empty server is serialized. -/
theorem serialized_empty (policy : Policy) : Serialized policy {} where
  replayed := rfl
  legal := trivial
  held _ write hWrite := by cases hWrite
  exclusive _ _ lock hLock := by cases hLock
  objects _ _ hData := by cases hData
  stored _ row hRow := by cases hRow

/-- What no step takes back: the identity of documents, the presence of objects, and the
commits so far. -/
structure Steady (server next : Server) : Prop where
  persists : Persists server.committed next.committed
  objects : ∀ key, (server.objects key).isSome → (next.objects key).isSome
  history : server.history <:+ next.history

theorem Steady.refl (server : Server) : Steady server server :=
  ⟨Persists.refl _, fun _ h => h, List.suffix_rfl⟩

theorem Steady.trans {first second third : Server} (h : Steady first second)
    (h' : Steady second third) : Steady first third :=
  ⟨h.persists.trans h'.persists, fun key hStored => h'.objects key (h.objects key hStored),
    h.history.trans h'.history⟩

theorem Undisturbed.steady {agent : Nat} {server next : Server}
    (h : Undisturbed agent server next) : Steady server next := by
  obtain ⟨recent, hHistory, _⟩ := h.history
  exact ⟨h.persists, h.objects, recent, hHistory.symm⟩

section Run
variable {policy : Policy} {Result : Type}
  {post : Nat → Except Failure Result → Server → Prop}
  {pool next : Pool Nat Server Call Response Failure Result}

/-- A step disturbs no other agent, so it takes nothing back. -/
theorem steady_step {action : Action Nat Choice Empty}
    (safe : (serialization policy).PoolSafe post pool)
    (h : pool.step environment action = some next) : Steady pool.state next.state := by
  cases action with
  | advance agent choice =>
      obtain ⟨request, rest, answer, hProgram, hPerform, _⟩ := Pool.step_advance h
      have hGuard := safe.guard hProgram
      have hOther : agent + 1 ≠ agent := by omega
      have hRely : Undisturbed (agent + 1) pool.state next.state :=
        (serialization policy).call_rely agent (agent + 1) _ request choice answer _ hOther safe.1
          hGuard hPerform
      exact hRely.steady
  | crash agent =>
      simp only [Pool.step, Option.some.injEq] at h
      subst h
      exact ⟨Persists.refl _, fun _ hStored => hStored, List.suffix_rfl⟩
  | event event => cases event

/-- Steps from a safe pool lead to a safe pool and take nothing back. -/
theorem steady_run {actions : List (Action Nat Choice Empty)}
    (hPost : ∀ agent outcome server now, Undisturbed agent server now →
      post agent outcome server → post agent outcome now)
    (safe : (serialization policy).PoolSafe post pool)
    (hRun : Transition.run (Pool.step environment) actions pool = some next) :
    (serialization policy).PoolSafe post next ∧ Steady pool.state next.state := by
  refine @Transition.run_invariant _ _ (Pool.step environment)
    (fun point => (serialization policy).PoolSafe post point ∧ Steady pool.state point.state)
    ?_ _ _ _ ⟨safe, Steady.refl pool.state⟩ hRun
  rintro point action after ⟨hSafe, hSteady⟩ hStep
  exact ⟨hSafe.step hPost hStep, hSteady.trans (steady_step hSafe hStep)⟩

end Run

end DocInsight.Storage
