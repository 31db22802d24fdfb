import DocInsight.Storage.Writes

/-! Committed transactions in their order. When each of them amounts to an operation that
was possible where it committed, what they left keeps the invariants of the tables. -/
namespace DocInsight.Storage

open DocInsight.Contracts DocInsight.Worker Table

/-- A committed transaction that wrote something, and whether its agent was told. -/
structure Commit where
  agent : Nat
  writes : List Write
  answered : Bool := true
  deriving DecidableEq, Repr

/-- The tables after the commits of a history, newest first. -/
def replay : List Commit → Database
  | [] => {}
  | commit :: earlier => applyAll commit.writes (replay earlier)

/-- The content whose output a transaction stores. -/
def storedContent : List Write → Option (String × String)
  | .insertDocument row :: .deleteChunks _ _ :: _ => some row.contentKey
  | .replaceDocument row :: .deleteChunks _ _ :: _ => some row.contentKey
  | _ => none

/-- Some commit stored output for this content. -/
def OutputStored (history : List Commit) (content : String × String) : Prop :=
  ∃ commit ∈ history, storedContent commit.writes = some content

/-- A record that an upsert prepared from the document it was given. -/
def Prepared (record : StoredDocument) : Prop :=
  ∃ tenantId filename document id now,
    prepareDocument tenantId filename document id now = .ok record

/-- A single call of the upsert committed this record. -/
def Upserted (uuid5 : UUID → String → UUID) (history : List Commit) (record : StoredDocument) :
    Prop :=
  Prepared record ∧ ∃ commit earlier now, commit :: earlier <:+ history ∧
    commit.writes = (Operation.output record now).writes uuid5 (replay earlier)

/-- What makes an operation possible after a history. -/
def Operation.Enabled (history : List Commit) : Operation → Prop
  | .register record event =>
      record.status = .uploaded ∧ Announces event record ∧
        (replay history).findByContent record.tenantId record.sha256 = none ∧
        select DocumentRow.id record.id (replay history).documents = none
  | .output record _ =>
      Prepared record ∧
        ((replay history).findByContent record.tenantId record.sha256 = none →
          select DocumentRow.id record.id (replay history).documents = none)
  | .status tenantId documentId next _ =>
      ∃ row, (replay history).findById tenantId documentId = some row ∧
        (next = .processed → OutputStored history row.contentKey)

/-- Every commit amounts to a permitted operation that was possible where it committed. -/
def Legal (uuid5 : UUID → String → UUID) (permits : Operation → Prop) : List Commit → Prop
  | [] => True
  | commit :: earlier =>
      (∃ operation, permits operation ∧ operation.Enabled earlier ∧
        commit.writes = operation.writes uuid5 (replay earlier)) ∧
      Legal uuid5 permits earlier

/-- Every row lives on with its identity. -/
def Persists (before after : Database) : Prop :=
  ∀ row ∈ before.documents, ∃ later ∈ after.documents, SameIdentity row later

theorem Persists.refl (database : Database) : Persists database database :=
  fun row hRow => ⟨row, hRow, SameIdentity.refl row⟩

theorem Persists.trans {first second third : Database} (h : Persists first second)
    (h' : Persists second third) : Persists first third := by
  intro row hRow
  obtain ⟨middle, hMiddle, hSame⟩ := h row hRow
  obtain ⟨later, hLater, hSame'⟩ := h' middle hMiddle
  exact ⟨later, hLater, hSame.trans hSame'⟩

section Operation
variable {uuid5 : UUID → String → UUID} {history : List Commit} {database : Database}

/-- The row that an upsert leaves has the content of its record. -/
theorem contentKey_outputRow (record : DocumentRow) (now : Timestamp) :
    (Operation.outputRow database record now).contentKey = record.contentKey := by
  rw [Operation.outputRow]
  cases hFound : database.findByContent record.tenantId record.sha256 with
  | none => rfl
  | some row => exact (select_mem hFound).2

/-- The rows after an upsert: the one it leaves, and those of other contents. -/
theorem mem_upsertRow (unique : database.Unique) {record : DocumentRow} {now : Timestamp}
    {row : DocumentRow} (hRow : row ∈ (database.upsertRow record now).documents) :
    row = Operation.outputRow database record now ∨
      row ∈ database.documents ∧ row.contentKey ≠ record.contentKey := by
  rw [Database.upsertRow] at hRow
  rw [Operation.outputRow]
  cases hFound : database.findByContent record.tenantId record.sha256 with
  | none =>
      rw [hFound] at hRow
      rcases List.mem_append.mp hRow with hOld | hNew
      · exact Or.inr ⟨hOld, select_eq_none.mp hFound row hOld⟩
      · exact Or.inl (List.mem_singleton.mp hNew)
  | some found =>
      rw [hFound] at hRow
      obtain ⟨hFoundRow, hKey⟩ := select_mem hFound
      obtain ⟨old, hOld, rfl⟩ := mem_updateWhere.mp hRow
      by_cases hOldKey : old.contentKey = record.contentKey
      · rw [if_pos (decide_eq_true hOldKey),
          unique.contents.eq_of_key hOld hFoundRow (hOldKey.trans hKey.symm)]
        exact Or.inl rfl
      · rw [if_neg (by simpa using hOldKey)]
        exact Or.inr ⟨hOld, hOldKey⟩

theorem outputRow_mem (record : StoredDocument) (now : Timestamp) :
    Operation.outputRow database record.toDocumentRow now ∈
      (database.upsertRow record.toDocumentRow now).documents :=
  (select_mem (findByContent_upsertRow record now)).1

theorem Operation.Enabled.unique {operation : Operation} (enabled : operation.Enabled history)
    (unique : (replay history).Unique) :
    (operation.apply uuid5 (replay history)).Unique := by
  cases operation with
  | register record event =>
      obtain ⟨_, _, hAbsent, hFresh⟩ := enabled
      rw [Operation.apply, Database.register, hAbsent]
      exact ⟨unique.ids.append hFresh, unique.contents.append hAbsent⟩
  | output record now => exact unique.upsertDocument uuid5 now enabled.2
  | status tenantId documentId next error => exact unique.markStatus tenantId documentId next error

theorem persists_updateWhere {condition : DocumentRow → Bool}
    {change : DocumentRow → DocumentRow} (hChange : ∀ row, SameIdentity row (change row)) :
    Persists database
      { database with documents := updateWhere condition change database.documents } := by
  intro row hRow
  refine ⟨_, mem_updateWhere.mpr ⟨row, hRow, rfl⟩, ?_⟩
  split_ifs
  · exact hChange row
  · exact SameIdentity.refl row

theorem persists_append (database : Database) (row : DocumentRow) :
    Persists database { database with documents := database.documents ++ [row] } :=
  fun old hOld => ⟨old, List.mem_append_left _ hOld, SameIdentity.refl old⟩

/-- No operation deletes a document or changes its identity. -/
theorem persists_apply (operation : Operation) :
    Persists database (operation.apply uuid5 database) := by
  cases operation with
  | register record event =>
      rw [Operation.apply, Database.register]
      cases database.findByContent record.tenantId record.sha256 with
      | none => exact persists_append database record
      | some row => exact Persists.refl database
  | output record now =>
      have hRow : Persists database (database.upsertRow record.toDocumentRow now) := by
        rw [Database.upsertRow]
        cases database.findByContent record.tenantId record.sha256 with
        | none => exact persists_append database _
        | some row => exact persists_updateWhere fun old => sameIdentity_replacedRow _ now old
      intro row hMem
      rw [Operation.apply, Database.upsertDocument_documents]
      exact hRow row hMem
  | status tenantId documentId next error =>
      exact persists_updateWhere fun row => sameIdentity_statusRow next error row

end Operation

section History
variable {uuid5 : UUID → String → UUID} {permits : Operation → Prop} {commit : Commit}
  {earlier history : List Commit}

/-- The writes of a possible operation have its effect. -/
theorem Operation.Enabled.applyAll_writes {operation : Operation}
    (enabled : operation.Enabled history) (unique : (replay history).Unique) :
    applyAll (operation.writes uuid5 (replay history)) (replay history) =
      operation.apply uuid5 (replay history) := by
  apply Storage.applyAll_writes unique operation
  rintro record event rfl
  obtain ⟨_, announces, hAbsent, _⟩ := enabled
  exact ⟨hAbsent, announces⟩

/-- What a commit did: a possible operation, at once. -/
theorem Legal.apply (legal : Legal uuid5 permits (commit :: earlier))
    (unique : (replay earlier).Unique) :
    ∃ operation, permits operation ∧ operation.Enabled earlier ∧
      commit.writes = operation.writes uuid5 (replay earlier) ∧
      replay (commit :: earlier) = operation.apply uuid5 (replay earlier) := by
  obtain ⟨⟨operation, hPermits, enabled, hWrites⟩, _⟩ := legal
  refine ⟨operation, hPermits, enabled, hWrites, ?_⟩
  rw [replay, hWrites]
  exact enabled.applyAll_writes unique

theorem Legal.unique (legal : Legal uuid5 permits history) : (replay history).Unique := by
  induction history with
  | nil => exact ⟨List.nodup_nil, List.nodup_nil⟩
  | cons commit earlier ih =>
      have unique := ih legal.2
      obtain ⟨operation, _, enabled, _, hReplay⟩ := legal.apply unique
      rw [hReplay]
      exact enabled.unique unique

theorem Legal.of_append {recent : List Commit} (legal : Legal uuid5 permits (recent ++ earlier)) :
    Legal uuid5 permits earlier := by
  induction recent with
  | nil => exact legal
  | cons commit recent ih => exact ih legal.2

/-- Documents outlive every later commit. -/
theorem Legal.persists {recent : List Commit}
    (legal : Legal uuid5 permits (recent ++ earlier)) :
    Persists (replay earlier) (replay (recent ++ earlier)) := by
  induction recent with
  | nil => exact Persists.refl _
  | cons commit recent ih =>
      have hLegal : Legal uuid5 permits (commit :: (recent ++ earlier)) := legal
      obtain ⟨operation, _, _, _, hReplay⟩ := hLegal.apply hLegal.2.unique
      rw [List.cons_append, hReplay]
      exact (ih hLegal.2).trans (persists_apply operation)

end History

end DocInsight.Storage
