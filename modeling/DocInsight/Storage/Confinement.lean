import DocInsight.Library.Lockstep
import DocInsight.Storage.Serialization
import DocInsight.Storage.Tenancy

/-! What a procedure of one tenant does on a connection of its own, beside another one that
has only that tenant's rows. -/
namespace DocInsight.Storage

open DocInsight.Contracts DocInsight.Worker Interaction Table

/-- A connection of its own to a server, with the calls it has made. -/
structure Connection where
  server : Server
  calls : Nat := 0

/-- The answer to a call where each has its own surroundings. -/
def Connection.answer (choices : Nat → Choice) (connection : Connection) (request : Call) :
    Except Failure (Response request) × Connection :=
  match connection.server.perform 0 request (choices connection.calls) with
  | some (answer, server) => (answer, { server, calls := connection.calls + 1 })
  | none => (.error .timeout, { connection with calls := connection.calls + 1 })

/-- The calls of one tenant's operation: statements of the tenant, and objects under the
tenant's name. -/
def Call.OwnedBy (tenant : String) (identifiers : Identifiers) : Call → Prop
  | .execute statement => statement.OwnedBy tenant identifiers
  | .putObject key _ _ => ∃ sha256, key = contentObjectKey tenant sha256
  | _ => True

/-- A new identifier is one that the operation makes. -/
def Made (identifiers : Identifiers) :
    (request : Call) → Except Failure (Response request) → Prop
  | .identifier, .ok id => identifiers.made id
  | _, _ => True

/-- Servers of which nobody else has a transaction, with related tables. -/
structure Beside (related : Database → Database → Prop) (first second : Server) : Prop where
  committed : related first.committed second.committed
  view : related (first.view 0) (second.view 0)
  alone : ∀ held ∈ first.locks, held.1 = 0
  other : ∀ held ∈ second.locks, held.1 = 0

section Server
variable {server : Server}

theorem blocked_eq_false (alone : ∀ held ∈ server.locks, held.1 = 0) (wanted : List Lock) :
    server.blocked 0 wanted = false := by
  rw [Server.blocked, List.any_eq_false]
  intro held hHeld hBlocked
  exact (of_decide_eq_true hBlocked).1 (alone held hHeld)

theorem view_stage (writes : List Write) :
    (server.stage 0 writes).view 0 = applyAll writes (server.view 0) := by
  rw [Server.view, stage_transactions, applyAll_append]
  rfl

theorem stage_alone (alone : ∀ held ∈ server.locks, held.1 = 0) (writes : List Write) :
    ∀ held ∈ (server.stage 0 writes).locks, held.1 = 0 := by
  intro held hHeld
  cases mem_stage_locks.mp hHeld with
  | inl hNew => exact hNew.1
  | inr hOld => exact alone held hOld

theorem view_finish : (server.finish 0).view 0 = server.committed := by
  rw [Server.view, finish_transactions]
  rfl

theorem finish_alone (alone : ∀ held ∈ server.locks, held.1 = 0) :
    ∀ held ∈ (server.finish 0).locks, held.1 = 0 := by
  intro held hHeld
  exact alone held (mem_finish_locks.mp hHeld).1

end Server

section Beside
variable {related : Database → Database → Prop} {first second : Server}

theorem Beside.finish (beside : Beside related first second) :
    Beside related (first.finish 0) (second.finish 0) := by
  refine ⟨beside.committed, ?_, finish_alone beside.alone, finish_alone beside.other⟩
  rw [view_finish, view_finish]
  exact beside.committed

theorem Beside.publish (beside : Beside related first second) (answered : Bool) :
    Beside related ((first.publish 0 answered).finish 0) ((second.publish 0 answered).finish 0) := by
  have hCommitted : related (first.publish 0 answered).committed
      (second.publish 0 answered).committed := by
    rw [publish_committed, publish_committed]
    exact beside.view
  refine ⟨hCommitted, ?_, finish_alone ?_, finish_alone ?_⟩
  · rw [view_finish, view_finish]
    exact hCommitted
  · rw [publish_locks]
    exact beside.alone
  · rw [publish_locks]
    exact beside.other

/-- What objects there are has no say in the tables. -/
theorem Beside.putObject (beside : Beside related first second) (key : String) (stream : Bytes)
    (size : Nat) :
    Beside related (first.putObject key stream size) (second.putObject key stream size) :=
  ⟨beside.committed, beside.view, beside.alone, beside.other⟩

end Beside

section Calls
variable {related : Database → Database → Prop} {tenant : String} {identifiers : Identifiers}
  (hExecute : ∀ first second (statement : Statement) now, related first second →
    statement.OwnedBy tenant identifiers →
    statement.execute first now = statement.execute second now ∧
      ∀ answer writes, statement.execute first now = .ok (answer, writes) →
        related (applyAll writes first) (applyAll writes second))

include hExecute

/-- A call for a tenant is answered alike beside related tables, and keeps them related. -/
theorem perform_beside {first second : Server} (beside : Beside related first second)
    {request : Call} (owned : request.OwnedBy tenant identifiers) {choice : Choice}
    (hMade : identifiers.made choice.identifier) :
    ∃ answer next other, first.perform 0 request choice = some (answer, next) ∧
      second.perform 0 request choice = some (answer, other) ∧ Beside related next other ∧
      Made identifiers request answer := by
  cases hFailure : choice.failure with
  | some error =>
      cases request with
      | commit =>
          simp only [Server.perform, hFailure]
          refine ⟨_, _, _, rfl, rfl, ?_, trivial⟩
          split_ifs
          · exact beside.publish false
          · exact beside.finish
      | rollback =>
          simp only [Server.perform, hFailure]
          exact ⟨_, _, _, rfl, rfl, beside.finish, trivial⟩
      | putObject key stream size =>
          simp only [Server.perform, hFailure]
          refine ⟨_, _, _, rfl, rfl, ?_, trivial⟩
          split_ifs
          · exact beside.putObject key stream size
          · exact beside
      | begin | execute | identifier | clock | outside | stream =>
          simp only [Server.perform, hFailure]
          exact ⟨_, _, _, rfl, rfl, beside, trivial⟩
  | none =>
      cases request with
      | execute statement =>
          obtain ⟨hSame, hKept⟩ := hExecute _ _ statement choice.now beside.view owned
          simp only [Server.perform, hFailure]
          rw [← hSame]
          cases hAnswer : statement.execute (first.view 0) choice.now with
          | error error => exact ⟨_, _, _, rfl, rfl, beside, trivial⟩
          | ok result =>
              obtain ⟨answer, writes⟩ := result
              simp only [blocked_eq_false beside.alone, blocked_eq_false beside.other]
              refine ⟨_, _, _, rfl, rfl, ?_, trivial⟩
              refine ⟨beside.committed, ?_, stage_alone beside.alone writes,
                stage_alone beside.other writes⟩
              rw [view_stage, view_stage]
              exact hKept answer writes hAnswer
      | commit =>
          simp only [Server.perform, hFailure]
          exact ⟨_, _, _, rfl, rfl, beside.publish true, trivial⟩
      | rollback =>
          simp only [Server.perform, hFailure]
          exact ⟨_, _, _, rfl, rfl, beside.finish, trivial⟩
      | putObject key stream size =>
          simp only [Server.perform, hFailure]
          split_ifs
          · exact ⟨_, _, _, rfl, rfl, beside, trivial⟩
          · exact ⟨_, _, _, rfl, rfl, beside.putObject key stream size, trivial⟩
      | identifier =>
          simp only [Server.perform, hFailure]
          exact ⟨_, _, _, rfl, rfl, beside, hMade⟩
      | begin | clock | outside | stream =>
          simp only [Server.perform, hFailure]
          exact ⟨_, _, _, rfl, rfl, beside, trivial⟩

/-- So is a whole operation for the tenant. -/
theorem interpret_beside {Result : Type} {choices : Nat → Choice}
    (hMade : ∀ call, identifiers.made (choices call).identifier) {procedure : Procedure Result}
    (confined : procedure.Confined (Call.OwnedBy tenant identifiers) (Made identifiers))
    {first second : Database} (hRelated : related first second) :
    (procedure.interpret (Connection.answer choices) { server := { committed := first } }).1 =
        (procedure.interpret (Connection.answer choices) { server := { committed := second } }).1 ∧
      related
        (procedure.interpret (Connection.answer choices)
          { server := { committed := first } }).2.server.committed
        (procedure.interpret (Connection.answer choices)
          { server := { committed := second } }).2.server.committed := by
  let both (first second : Connection) : Prop :=
    Beside related first.server second.server ∧ first.calls = second.calls
  have hCall (request : Call) (first second : Connection)
      (owned : request.OwnedBy tenant identifiers) (hBoth : both first second) :
      (first.answer choices request).1 = (second.answer choices request).1 ∧
        both (first.answer choices request).2 (second.answer choices request).2 ∧
        Made identifiers request (first.answer choices request).1 := by
    obtain ⟨beside, hCalls⟩ := hBoth
    obtain ⟨answer, next, other, hFirst, hSecond, hNext, hAnswer⟩ :=
      perform_beside hExecute beside owned (hMade first.calls)
    rw [Connection.answer, hFirst, Connection.answer, ← hCalls, hSecond]
    exact ⟨rfl, ⟨hNext, rfl⟩, hAnswer⟩
  obtain ⟨hSame, hAfter, _⟩ := @Program.Confined.lockstep Call Response Failure Result _ _ _
    (Connection.answer choices) both procedure hCall confined
    { server := { committed := first } } { server := { committed := second } }
    ⟨⟨hRelated, hRelated, fun _ h => (List.not_mem_nil h).elim,
      fun _ h => (List.not_mem_nil h).elim⟩, rfl⟩
  exact ⟨hSame, hAfter.committed⟩

end Calls

section Confined
variable {tenant : String} {identifiers : Identifiers}

/-- A procedure of one tenant. -/
abbrev ConfinedTo (tenant : String) (identifiers : Identifiers) {Result : Type}
    (procedure : Procedure Result) : Prop :=
  procedure.Confined (Call.OwnedBy tenant identifiers) (Made identifiers)

theorem confined_transaction {Result : Type} {body : Procedure Result}
    (confined : ConfinedTo tenant identifiers body) :
    ConfinedTo tenant identifiers (transaction body) := by
  apply Program.Confined.perform_bind (show Call.OwnedBy tenant identifiers .begin from trivial)
  intro _ _
  apply confined.andThen
  intro outcome
  cases outcome with
  | error error =>
      apply Program.Confined.andThen (Program.Confined.perform trivial)
      intro _
      exact trivial
  | ok result =>
      apply Program.Confined.andThen (Program.Confined.perform trivial)
      intro ended
      cases ended with
      | ok _ => exact trivial
      | error error => exact trivial

theorem confined_findBySha256 (sha256 : String) :
    ConfinedTo tenant identifiers (findBySha256 tenant sha256) := by
  apply confined_transaction
  apply Program.Confined.perform_bind
  · exact rfl
  · intro row _
    exact trivial

theorem confined_enqueue {record : DocumentRow} (hTenant : record.tenantId = tenant) :
    ConfinedTo tenant identifiers (enqueue record) := by
  apply Program.Confined.perform_bind (show Call.OwnedBy tenant identifiers .identifier from trivial)
  intro eventId hMade
  apply Program.Confined.perform_bind
    (show Call.OwnedBy tenant identifiers (.outside .traceparent) from trivial)
  intro traceparent _
  cases hEvent : uploadedEvent record eventId traceparent with
  | error error => exact trivial
  | ok event =>
      rw [uploadedEvent] at hEvent
      split_ifs at hEvent
      cases hEvent
      exact Program.Confined.perform ⟨hTenant, hMade⟩

theorem confined_registerUpload (filename sha256 : String) (mediaType : MediaType)
    (sizeBytes : Nat) (objectKey : String) :
    ConfinedTo tenant identifiers
      (registerUpload tenant filename sha256 mediaType sizeBytes objectKey) := by
  apply Program.Confined.perform_bind (show Call.OwnedBy tenant identifiers .identifier from trivial)
  intro id hMade
  apply Program.Confined.perform_bind (show Call.OwnedBy tenant identifiers .clock from trivial)
  intro createdAt _
  apply confined_transaction
  apply Program.Confined.perform_bind
  · exact ⟨rfl, hMade⟩
  · intro inserted _
    cases inserted with
    | some row =>
        apply (@confined_enqueue tenant identifiers _ rfl).bind
        intro _
        exact trivial
    | none =>
        apply Program.Confined.perform_bind
        · exact rfl
        · intro found _
          cases found with
          | some row => exact trivial
          | none => exact trivial

theorem confined_markStatus (documentId : UUID) (status : DocumentStatus) (error : Option String) :
    ConfinedTo tenant identifiers (markStatus tenant documentId status error) := by
  apply confined_transaction
  apply Program.Confined.perform_bind
  · exact rfl
  · intro found _
    cases found with
    | some id => exact trivial
    | none => exact trivial

section Replace
variable {uuid5 : UUID → String → UUID} {dimension : Nat} {chunks : List Chunk}
  {entities : List Entity}
  (hChunk : ∀ documentId index, index < chunks.length →
    identifiers.chunk documentId (uuid5 documentId ("chunks:" ++ toString index)))
  (hEntity : ∀ documentId index, index < entities.length →
    identifiers.entity documentId (uuid5 documentId ("entities:" ++ toString index)))

include hChunk in
theorem confined_replaceChunks (documentId : UUID) :
    ConfinedTo tenant identifiers (replaceChunks uuid5 tenant documentId chunks) := by
  apply Program.Confined.perform_bind
  · exact rfl
  · intro _ _
    split_ifs
    · exact trivial
    · apply Program.Confined.perform
      intro row hRow
      obtain ⟨⟨chunk, index⟩, hIndex, rfl⟩ := List.mem_map.mp hRow
      exact ⟨rfl, hChunk documentId index (List.snd_lt_of_mem_zipIdx hIndex)⟩

include hEntity in
theorem confined_replaceEntities (documentId : UUID) :
    ConfinedTo tenant identifiers (replaceEntities uuid5 tenant documentId entities) := by
  apply Program.Confined.perform_bind
  · exact rfl
  · intro _ _
    split_ifs
    · exact trivial
    · apply Program.Confined.perform
      intro row hRow
      obtain ⟨⟨entity, index⟩, hIndex, rfl⟩ := List.mem_map.mp hRow
      exact ⟨rfl, hEntity documentId index (List.snd_lt_of_mem_zipIdx hIndex)⟩

include hChunk hEntity

theorem confined_replace (documentId : UUID) :
    ConfinedTo tenant identifiers
      (replace uuid5 dimension tenant documentId chunks entities) := by
  rw [replace]
  split
  · exact trivial
  · apply (confined_replaceChunks hChunk documentId).bind
    intro _
    exact confined_replaceEntities hEntity documentId

theorem confined_replaceChunksAndEntities (documentId : UUID) :
    ConfinedTo tenant identifiers
      (replaceChunksAndEntities uuid5 dimension tenant documentId chunks entities) := by
  apply confined_transaction
  apply Program.Confined.perform_bind
  · exact rfl
  · intro owner _
    cases owner with
    | none => exact trivial
    | some id => exact confined_replace hChunk hEntity documentId

end Replace

theorem confined_upsertDocument {uuid5 : UUID → String → UUID} {dimension : Nat}
    {document : Document}
    (hChunk : ∀ documentId index, index < document.chunks.length →
      identifiers.chunk documentId (uuid5 documentId ("chunks:" ++ toString index)))
    (hEntity : ∀ documentId index, index < document.entities.length →
      identifiers.entity documentId (uuid5 documentId ("entities:" ++ toString index)))
    (filename : String) :
    ConfinedTo tenant identifiers (upsertDocument uuid5 dimension tenant filename document) := by
  apply Program.Confined.perform_bind (show Call.OwnedBy tenant identifiers .identifier from trivial)
  intro id hMade
  apply Program.Confined.perform_bind (show Call.OwnedBy tenant identifiers .clock from trivial)
  intro now _
  cases hPrepare : prepareDocument tenant filename document id now with
  | error error => exact trivial
  | ok record =>
      cases prepareDocument_ok hPrepare
      apply confined_transaction
      apply Program.Confined.perform_bind
      · exact ⟨rfl, hMade⟩
      · intro row _
        apply (confined_replace hChunk hEntity row.id).bind
        intro _
        exact trivial

end Confined

section Procedures
variable {tenant : String} {identifiers : Identifiers} {choices : Nat → Choice}
  {database : Database} {Result : Type} {procedure : Procedure Result}

/-- What a procedure comes to on a connection of its own, and the tables it leaves. -/
def transact (choices : Nat → Choice) (procedure : Procedure Result) (database : Database) :
    Except Failure Result × Database :=
  let ended := procedure.interpret (Connection.answer choices)
    { server := { committed := database } }
  (ended.1, ended.2.server.committed)

/-- A tenant's procedure is one on the tenant's rows. -/
theorem transact_ofTenant (consistent : database.Consistent)
    (fresh : Fresh tenant identifiers database)
    (hMade : ∀ call, identifiers.made (choices call).identifier)
    (confined : ConfinedTo tenant identifiers procedure) :
    transact choices procedure (database.ofTenant tenant) =
      ((transact choices procedure database).1,
        (transact choices procedure database).2.ofTenant tenant) := by
  let restricted (first second : Database) : Prop :=
    first.Consistent ∧ Fresh tenant identifiers first ∧ second = first.ofTenant tenant
  have hExecute (first second : Database) (statement : Statement) (now : Timestamp)
      (hFirst : restricted first second) (owned : statement.OwnedBy tenant identifiers) :
      statement.execute first now = statement.execute second now ∧
        ∀ answer writes, statement.execute first now = .ok (answer, writes) →
          restricted (applyAll writes first) (applyAll writes second) := by
    obtain ⟨consistent, fresh, rfl⟩ := hFirst
    refine ⟨(execute_ofTenant consistent fresh owned).symm, fun answer writes hAnswer => ?_⟩
    have effect := execute_effect owned hAnswer
    exact ⟨effect.consistent consistent, effect.fresh fresh,
      (ofTenant_applyAll effect.ownedBy).symm⟩
  obtain ⟨hOutcome, _, _, hAfter⟩ := interpret_beside hExecute hMade confined
    (show restricted database (database.ofTenant tenant) from ⟨consistent, fresh, rfl⟩)
  exact Prod.ext hOutcome.symm hAfter

/-- Another tenant's procedure leaves the tenant's rows as they are. -/
theorem transact_other {other : String} (hOther : other ≠ tenant)
    (hMade : ∀ call, identifiers.made (choices call).identifier)
    (confined : ConfinedTo other identifiers procedure) :
    (transact choices procedure database).2.ofTenant tenant = database.ofTenant tenant := by
  let unchanged (first second : Database) : Prop :=
    first = second ∧ first.ofTenant tenant = database.ofTenant tenant
  have hExecute (first second : Database) (statement : Statement) (now : Timestamp)
      (hFirst : unchanged first second) (owned : statement.OwnedBy other identifiers) :
      statement.execute first now = statement.execute second now ∧
        ∀ answer writes, statement.execute first now = .ok (answer, writes) →
          unchanged (applyAll writes first) (applyAll writes second) := by
    obtain ⟨rfl, hSame⟩ := hFirst
    refine ⟨rfl, fun answer writes hAnswer => ⟨rfl, ?_⟩⟩
    rw [ofTenant_applyAll_other (execute_effect owned hAnswer).ownedBy hOther, hSame]
  exact (interpret_beside hExecute hMade confined
    (show unchanged database database from ⟨rfl, rfl⟩)).2.2

/-- Procedures keep the keys. -/
theorem transact_consistent (consistent : database.Consistent)
    (hMade : ∀ call, identifiers.made (choices call).identifier)
    (confined : ConfinedTo tenant identifiers procedure) :
    (transact choices procedure database).2.Consistent := by
  let kept (first second : Database) : Prop := first = second ∧ first.Consistent
  have hExecute (first second : Database) (statement : Statement) (now : Timestamp)
      (hFirst : kept first second) (owned : statement.OwnedBy tenant identifiers) :
      statement.execute first now = statement.execute second now ∧
        ∀ answer writes, statement.execute first now = .ok (answer, writes) →
          kept (applyAll writes first) (applyAll writes second) := by
    obtain ⟨rfl, consistent⟩ := hFirst
    exact ⟨rfl, fun answer writes hAnswer =>
      ⟨rfl, (execute_effect owned hAnswer).consistent consistent⟩⟩
  exact (interpret_beside hExecute hMade confined
    (show kept database database from ⟨rfl, consistent⟩)).2.2

/-- Whatever its calls are answered, a procedure comes to the same answer on any two contents
of the tables that agree on a tenant's rows. It changes these rows alike, and no others. -/
def Separate (tenant : String) (procedure : Procedure Result) : Prop :=
  ∀ (choices : Nat → Choice) (identifiers : Identifiers) (first second : Database),
    (∀ call, identifiers.made (choices call).identifier) →
    first.Consistent → second.Consistent →
    Fresh tenant identifiers first → Fresh tenant identifiers second →
    first.ofTenant tenant = second.ofTenant tenant →
    (transact choices procedure first).1 = (transact choices procedure second).1 ∧
      (transact choices procedure first).2.ofTenant tenant =
        (transact choices procedure second).2.ofTenant tenant ∧
      ∀ other, other ≠ tenant →
        (transact choices procedure first).2.ofTenant other = first.ofTenant other

theorem separate_of_confined
    (confined : ∀ identifiers, ConfinedTo tenant identifiers procedure) :
    Separate tenant procedure := by
  intro choices identifiers first second hMade hFirst hSecond freshFirst freshSecond hAgree
  have hRuns := (transact_ofTenant hFirst freshFirst hMade (confined identifiers)).symm
  rw [hAgree, transact_ofTenant hSecond freshSecond hMade (confined identifiers)] at hRuns
  obtain ⟨hOutcome, hRows⟩ := Prod.mk.inj hRuns
  exact ⟨hOutcome, hRows, fun other hOther =>
    transact_other (Ne.symm hOther) hMade (confined identifiers)⟩

end Procedures

end DocInsight.Storage
