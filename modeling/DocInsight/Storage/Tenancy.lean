import DocInsight.Ingest.Relay
import DocInsight.Library.Partition
import DocInsight.Storage.Transactions

/-! The rows of one tenant as a database of its own, and what the statements of a tenant
make of it. -/
namespace DocInsight.Worker.Database

open DocInsight.Contracts Table

/-- The rows of one tenant. -/
def ofTenant (tenant : String) (database : Database) : Database where
  documents := ofOwner DocumentRow.tenantId tenant database.documents
  chunks := ofOwner ChunkRow.tenantId tenant database.chunks
  entities := ofOwner EntityRow.tenantId tenant database.entities
  outbox := ofOwner OutboxRow.tenantId tenant database.outbox

/-- The keys of the schema. -/
structure Consistent (database : Database) : Prop where
  unique : database.Unique
  chunks : Keyed ChunkRow.id database.chunks
  entities : Keyed EntityRow.id database.entities
  outbox : Keyed OutboxRow.id database.outbox

section Reads
variable (tenant : String) (database : Database)

theorem findByContent_ofTenant (sha256 : String) :
    (database.ofTenant tenant).findByContent tenant sha256 =
      database.findByContent tenant sha256 :=
  select_ofOwner fun _ _ hKey => congrArg Prod.fst hKey

theorem findById_ofTenant (id : UUID) :
    (database.ofTenant tenant).findById tenant id = database.findById tenant id :=
  select_ofOwner fun _ _ hKey => congrArg Prod.fst hKey

theorem getDocument_ofTenant (id : UUID) :
    (database.ofTenant tenant).getDocument tenant id = database.getDocument tenant id := by
  have hChunks : (database.ofTenant tenant).chunks.filter (fun child =>
      child.tenantId = tenant ∧ child.documentId = id) = database.chunks.filter (fun child =>
        child.tenantId = tenant ∧ child.documentId = id) :=
    filter_ofOwner fun row _ hRow => (of_decide_eq_true hRow).1
  have hEntities : (database.ofTenant tenant).entities.filter (fun child =>
      child.tenantId = tenant ∧ child.documentId = id) = database.entities.filter (fun child =>
        child.tenantId = tenant ∧ child.documentId = id) :=
    filter_ofOwner fun row _ hRow => (of_decide_eq_true hRow).1
  rw [getDocument, findById_ofTenant, hChunks, hEntities, getDocument]

end Reads

end DocInsight.Worker.Database

namespace DocInsight.Storage

open DocInsight.Contracts DocInsight.Worker Interaction Table

/-- A write of rows of one tenant. -/
def Write.OwnedBy (tenant : String) : Write → Prop
  | .insertDocument row | .replaceDocument row => row.tenantId = tenant
  | .deleteChunks tenantId _ | .deleteEntities tenantId _ => tenantId = tenant
  | .insertChunks rows => ∀ row ∈ rows, row.tenantId = tenant
  | .insertEntities rows => ∀ row ∈ rows, row.tenantId = tenant
  | .insertOutbox row => row.tenantId = tenant

section Writes
variable {tenant other : String} {database : Database} {write : Write} {writes : List Write}

/-- A replaced row is put where the tenant's row with its content was. -/
theorem replaceDocument_owner {row old : DocumentRow}
    (h : decide (old.contentKey = row.contentKey) = true) : row.tenantId = old.tenantId :=
  (congrArg Prod.fst (of_decide_eq_true h)).symm

/-- A tenant's write is one to its own rows. -/
theorem ofTenant_apply (hOwned : write.OwnedBy tenant) :
    (write.apply database).ofTenant tenant = write.apply (database.ofTenant tenant) := by
  cases write with
  | insertDocument row =>
      have hRow : ofOwner DocumentRow.tenantId tenant [row] = [row] :=
        ofOwner_of_all fun new hNew => List.mem_singleton.mp hNew ▸ hOwned
      simp only [Write.apply, Database.ofTenant, ofOwner_append, hRow]
  | replaceDocument row =>
      simp only [Write.apply, Database.ofTenant]
      rw [ofOwner_updateWhere fun old hOld => replaceDocument_owner hOld]
  | deleteChunks tenantId documentId =>
      simp only [Write.apply, Database.ofTenant, ofOwner_filter]
  | insertChunks rows =>
      simp only [Write.apply, Database.ofTenant, ofOwner_append, ofOwner_of_all hOwned]
  | deleteEntities tenantId documentId =>
      simp only [Write.apply, Database.ofTenant, ofOwner_filter]
  | insertEntities rows =>
      simp only [Write.apply, Database.ofTenant, ofOwner_append, ofOwner_of_all hOwned]
  | insertOutbox row =>
      have hRow : ofOwner OutboxRow.tenantId tenant [row] = [row] :=
        ofOwner_of_all fun new hNew => List.mem_singleton.mp hNew ▸ hOwned
      simp only [Write.apply, Database.ofTenant, ofOwner_append, hRow]

/-- Another tenant's write is none to a tenant's rows. -/
theorem ofTenant_apply_other (hOwned : write.OwnedBy other) (hOther : other ≠ tenant) :
    (write.apply database).ofTenant tenant = database.ofTenant tenant := by
  cases write with
  | insertDocument row =>
      have hRow : ofOwner DocumentRow.tenantId tenant [row] = [] :=
        ofOwner_of_none fun new hNew => by
          rw [List.mem_singleton.mp hNew, hOwned]
          exact hOther
      simp only [Write.apply, Database.ofTenant, ofOwner_append, hRow, List.append_nil]
  | replaceDocument row =>
      simp only [Write.apply, Database.ofTenant]
      rw [ofOwner_updateWhere_other fun old hOld => replaceDocument_owner hOld]
      intro old hOld
      rw [← replaceDocument_owner hOld, hOwned]
      exact hOther
  | deleteChunks tenantId documentId =>
      cases hOwned
      simp only [Write.apply, Database.ofTenant]
      rw [ofOwner_filter_other]
      simp +contextual [hOther.symm]
  | insertChunks rows =>
      have hRows : ofOwner ChunkRow.tenantId tenant rows = [] :=
        ofOwner_of_none fun row hRow hTenant => hOther ((hOwned row hRow).symm.trans hTenant)
      simp only [Write.apply, Database.ofTenant, ofOwner_append, hRows, List.append_nil]
  | deleteEntities tenantId documentId =>
      cases hOwned
      simp only [Write.apply, Database.ofTenant]
      rw [ofOwner_filter_other]
      simp +contextual [hOther.symm]
  | insertEntities rows =>
      have hRows : ofOwner EntityRow.tenantId tenant rows = [] :=
        ofOwner_of_none fun row hRow hTenant => hOther ((hOwned row hRow).symm.trans hTenant)
      simp only [Write.apply, Database.ofTenant, ofOwner_append, hRows, List.append_nil]
  | insertOutbox row =>
      have hRow : ofOwner OutboxRow.tenantId tenant [row] = [] :=
        ofOwner_of_none fun new hNew => by
          rw [List.mem_singleton.mp hNew, hOwned]
          exact hOther
      simp only [Write.apply, Database.ofTenant, ofOwner_append, hRow, List.append_nil]

theorem ofTenant_applyAll (hOwned : ∀ write ∈ writes, write.OwnedBy tenant) :
    (applyAll writes database).ofTenant tenant = applyAll writes (database.ofTenant tenant) := by
  induction writes generalizing database with
  | nil => rfl
  | cons write rest ih =>
      rw [applyAll_cons, applyAll_cons, ← ofTenant_apply (hOwned write (List.mem_cons_self ..))]
      exact ih fun next hNext => hOwned next (List.mem_cons_of_mem _ hNext)

theorem ofTenant_applyAll_other (hOwned : ∀ write ∈ writes, write.OwnedBy other)
    (hOther : other ≠ tenant) :
    (applyAll writes database).ofTenant tenant = database.ofTenant tenant := by
  induction writes generalizing database with
  | nil => rfl
  | cons write rest ih =>
      rw [applyAll_cons, ih fun next hNext => hOwned next (List.mem_cons_of_mem _ hNext)]
      exact ofTenant_apply_other (hOwned write (List.mem_cons_self ..)) hOther

end Writes

/-- The identifiers that an operation makes: new ones, and those it derives for the chunks
and the entities of a document. -/
structure Identifiers where
  made : UUID → Prop
  chunk : UUID → UUID → Prop
  entity : UUID → UUID → Prop

/-- A statement for one tenant. -/
def Statement.OwnedBy (tenant : String) (identifiers : Identifiers) : Statement → Prop
  | .selectByContent tenantId _ | .selectDocument tenantId _ | .deleteChunks tenantId _
  | .deleteEntities tenantId _ | .updateStatus tenantId _ _ _ | .lockDocument tenantId _ =>
      tenantId = tenant
  | .insertDocument record | .upsertDocument record =>
      record.tenantId = tenant ∧ identifiers.made record.id
  | .insertOutbox row => row.tenantId = tenant ∧ identifiers.made row.id
  | .insertChunks rows =>
      ∀ row ∈ rows, row.tenantId = tenant ∧ identifiers.chunk row.documentId row.id
  | .insertEntities rows =>
      ∀ row ∈ rows, row.tenantId = tenant ∧ identifiers.entity row.documentId row.id

/-- A document of the tenant, or one to be. -/
def OwnDocument (tenant : String) (identifiers : Identifiers) (database : Database) (id : UUID) :
    Prop :=
  identifiers.made id ∨ ∃ row ∈ database.documents, row.tenantId = tenant ∧ row.id = id

/-- No other tenant's row has an identifier that an operation for the tenant makes. -/
structure Fresh (tenant : String) (identifiers : Identifiers) (database : Database) : Prop where
  documents : ∀ row ∈ database.documents, row.tenantId ≠ tenant → ¬ identifiers.made row.id
  outbox : ∀ row ∈ database.outbox, row.tenantId ≠ tenant → ¬ identifiers.made row.id
  chunks : ∀ row ∈ database.chunks, row.tenantId ≠ tenant →
    ∀ id, OwnDocument tenant identifiers database id → ¬ identifiers.chunk id row.id
  entities : ∀ row ∈ database.entities, row.tenantId ≠ tenant →
    ∀ id, OwnDocument tenant identifiers database id → ¬ identifiers.entity id row.id

/-- What one statement of a tenant can write. -/
inductive Effect (tenant : String) (identifiers : Identifiers) (database : Database) :
    List Write → Prop where
  | nothing : Effect tenant identifiers database []
  | insertDocument {row : DocumentRow} (owned : row.tenantId = tenant)
      (made : identifiers.made row.id)
      (absent : database.findByContent row.tenantId row.sha256 = none)
      (unused : select DocumentRow.id row.id database.documents = none) :
      Effect tenant identifiers database [.insertDocument row]
  | replaceDocument {row old : DocumentRow} (found : old ∈ database.documents)
      (owned : old.tenantId = tenant) (same : SameIdentity old row) :
      Effect tenant identifiers database [.replaceDocument row]
  | deleteChunks (documentId : UUID) :
      Effect tenant identifiers database [.deleteChunks tenant documentId]
  | insertChunks {rows : List ChunkRow} (owned : ∀ row ∈ rows, row.tenantId = tenant)
      (keyed : Keyed ChunkRow.id (database.chunks ++ rows)) :
      Effect tenant identifiers database [.insertChunks rows]
  | deleteEntities (documentId : UUID) :
      Effect tenant identifiers database [.deleteEntities tenant documentId]
  | insertEntities {rows : List EntityRow} (owned : ∀ row ∈ rows, row.tenantId = tenant)
      (keyed : Keyed EntityRow.id (database.entities ++ rows)) :
      Effect tenant identifiers database [.insertEntities rows]
  | insertOutbox {row : OutboxRow} (owned : row.tenantId = tenant)
      (keyed : Keyed OutboxRow.id (database.outbox ++ [row])) :
      Effect tenant identifiers database [.insertOutbox row]

section Statements
variable {tenant : String} {identifiers : Identifiers} {database : Database}
  {statement : Statement} {now : Timestamp}

theorem insertable_keyed {Row : Type} {id : Row → UUID} {owner : Row → String × UUID}
    {documents : List DocumentRow} {rows added : List Row}
    (h : insertable id owner documents rows added = true) : Keyed id (rows ++ added) :=
  (of_decide_eq_true h).1

theorem execute_effect {answer : statement.Answer} {writes : List Write}
    (hStatement : statement.OwnedBy tenant identifiers)
    (h : statement.execute database now = .ok (answer, writes)) :
    Effect tenant identifiers database writes := by
  cases statement with
  | selectByContent tenantId sha256 =>
      cases h
      exact .nothing
  | selectDocument tenantId documentId =>
      cases h
      exact .nothing
  | insertDocument record =>
      simp only [Statement.execute] at h
      split at h
      · cases h
        exact .nothing
      · rename_i hAbsent
        split_ifs at h with hUsed
        cases h
        exact .insertDocument hStatement.1 hStatement.2 hAbsent (Option.not_isSome_iff_eq_none.mp hUsed)
  | insertOutbox row =>
      simp only [Statement.execute] at h
      split_ifs at h with hInsertable
      cases h
      exact .insertOutbox hStatement.1 (insertable_keyed hInsertable)
  | upsertDocument record =>
      simp only [Statement.execute] at h
      split at h
      · rename_i row hFound
        cases h
        obtain ⟨hRow, hKey⟩ := select_mem hFound
        exact .replaceDocument hRow ((congrArg Prod.fst hKey).trans hStatement.1)
          (sameIdentity_replacedRow record now row)
      · rename_i hAbsent
        split_ifs at h with hUsed
        cases h
        exact .insertDocument hStatement.1 hStatement.2 hAbsent (Option.not_isSome_iff_eq_none.mp hUsed)
  | deleteChunks tenantId documentId =>
      cases hStatement
      cases h
      exact .deleteChunks documentId
  | insertChunks rows =>
      simp only [Statement.execute] at h
      split_ifs at h with hInsertable
      cases h
      exact .insertChunks (fun row hRow => (hStatement row hRow).1) (insertable_keyed hInsertable)
  | deleteEntities tenantId documentId =>
      cases hStatement
      cases h
      exact .deleteEntities documentId
  | insertEntities rows =>
      simp only [Statement.execute] at h
      split_ifs at h with hInsertable
      cases h
      exact .insertEntities (fun row hRow => (hStatement row hRow).1) (insertable_keyed hInsertable)
  | updateStatus tenantId documentId status error =>
      simp only [Statement.execute] at h
      split at h
      · rename_i row hFound
        cases h
        obtain ⟨hRow, hKey⟩ := select_mem hFound
        exact .replaceDocument hRow ((congrArg Prod.fst hKey).trans hStatement)
          (sameIdentity_statusRow status error row)
      · cases h
        exact .nothing
  | lockDocument tenantId documentId =>
      simp only [Statement.execute] at h
      split at h
      · rename_i row hFound
        cases h
        obtain ⟨hRow, hKey⟩ := select_mem hFound
        exact .replaceDocument hRow ((congrArg Prod.fst hKey).trans hStatement)
          (SameIdentity.refl row)
      · cases h
        exact .nothing

namespace Effect
variable {writes : List Write}

theorem ownedBy (effect : Effect tenant identifiers database writes) :
    ∀ write ∈ writes, write.OwnedBy tenant := by
  intro write hWrite
  cases effect with
  | nothing => cases hWrite
  | insertDocument owned made absent unused =>
      cases List.mem_singleton.mp hWrite
      exact owned
  | replaceDocument found owned same =>
      cases List.mem_singleton.mp hWrite
      exact same.tenantId.trans owned
  | deleteChunks documentId =>
      cases List.mem_singleton.mp hWrite
      exact rfl
  | insertChunks owned keyed =>
      cases List.mem_singleton.mp hWrite
      exact owned
  | deleteEntities documentId =>
      cases List.mem_singleton.mp hWrite
      exact rfl
  | insertEntities owned keyed =>
      cases List.mem_singleton.mp hWrite
      exact owned
  | insertOutbox owned keyed =>
      cases List.mem_singleton.mp hWrite
      exact owned

/-- Replacing a row by one of the same identity is an update that keeps identities. -/
theorem unique_replaceDocument (unique : database.Unique) {row old : DocumentRow}
    (found : old ∈ database.documents) (same : SameIdentity old row) :
    (Write.apply database (.replaceDocument row)).Unique := by
  let change (other : DocumentRow) := if other = old then row else other
  have hOld : change old = row := if_pos rfl
  have hChange (other : DocumentRow) : SameIdentity other (change other) := by
    by_cases hOther : other = old
    · rw [hOther, hOld]
      exact same
    · rw [show change other = other from if_neg hOther]
      exact SameIdentity.refl other
  rw [← hOld, apply_replaceDocument unique found (fun other _ => decide_eq_true_iff) (hChange old)]
  exact unique.update hChange

/-- Statements keep the keys. -/
theorem consistent (effect : Effect tenant identifiers database writes)
    (h : database.Consistent) : (applyAll writes database).Consistent := by
  cases effect with
  | nothing => exact h
  | @insertDocument row owned made absent unused =>
      exact ⟨h.unique.insert row unused absent, h.chunks, h.entities, h.outbox⟩
  | replaceDocument found owned same =>
      exact ⟨unique_replaceDocument h.unique found same, h.chunks, h.entities, h.outbox⟩
  | deleteChunks documentId =>
      exact ⟨⟨h.unique.ids, h.unique.contents⟩,
        h.chunks.sublist (List.filter_sublist.map ChunkRow.id), h.entities, h.outbox⟩
  | insertChunks owned keyed =>
      exact ⟨⟨h.unique.ids, h.unique.contents⟩, keyed, h.entities, h.outbox⟩
  | deleteEntities documentId =>
      exact ⟨⟨h.unique.ids, h.unique.contents⟩, h.chunks,
        h.entities.sublist (List.filter_sublist.map EntityRow.id), h.outbox⟩
  | insertEntities owned keyed =>
      exact ⟨⟨h.unique.ids, h.unique.contents⟩, h.chunks, keyed, h.outbox⟩
  | insertOutbox owned keyed =>
      exact ⟨⟨h.unique.ids, h.unique.contents⟩, h.chunks, h.entities, keyed⟩

/-- The tenant's documents are the ones it had, or have identifiers that it made. -/
theorem ownDocument (effect : Effect tenant identifiers database writes) {id : UUID}
    (h : OwnDocument tenant identifiers (applyAll writes database) id) :
    OwnDocument tenant identifiers database id := by
  cases h with
  | inl made => exact Or.inl made
  | inr h =>
      obtain ⟨row, hRow, hTenant, rfl⟩ := h
      cases effect with
      | @insertDocument new owned made absent unused =>
          cases List.mem_append.mp hRow with
          | inl hOld => exact Or.inr ⟨row, hOld, hTenant, rfl⟩
          | inr hNew =>
              rw [List.mem_singleton.mp hNew]
              exact Or.inl made
      | @replaceDocument new old found owned same =>
          obtain ⟨other, hOther, hSame⟩ := mem_updateWhere.mp hRow
          split_ifs at hSame with hKey
          · rw [hSame, same.id]
            exact Or.inr ⟨old, found, owned, rfl⟩
          · rw [hSame] at hTenant ⊢
            exact Or.inr ⟨other, hOther, hTenant, rfl⟩
      | nothing => exact Or.inr ⟨row, hRow, hTenant, rfl⟩
      | deleteChunks documentId => exact Or.inr ⟨row, hRow, hTenant, rfl⟩
      | insertChunks owned keyed => exact Or.inr ⟨row, hRow, hTenant, rfl⟩
      | deleteEntities documentId => exact Or.inr ⟨row, hRow, hTenant, rfl⟩
      | insertEntities owned keyed => exact Or.inr ⟨row, hRow, hTenant, rfl⟩
      | insertOutbox owned keyed => exact Or.inr ⟨row, hRow, hTenant, rfl⟩

/-- Other tenants' rows are those they were, so they do not get the identifiers. -/
theorem fresh (effect : Effect tenant identifiers database writes)
    (h : Fresh tenant identifiers database) :
    Fresh tenant identifiers (applyAll writes database) := by
  have hSame {other : String} (hOther : other ≠ tenant) :
      (applyAll writes database).ofTenant other = database.ofTenant other :=
    ofTenant_applyAll_other effect.ownedBy hOther.symm
  constructor
  · intro row hRow hOther
    have hMem : row ∈ ((applyAll writes database).ofTenant row.tenantId).documents :=
      mem_ofOwner.mpr ⟨hRow, rfl⟩
    rw [hSame hOther] at hMem
    exact h.documents row (mem_ofOwner.mp hMem).1 hOther
  · intro row hRow hOther
    have hMem : row ∈ ((applyAll writes database).ofTenant row.tenantId).outbox :=
      mem_ofOwner.mpr ⟨hRow, rfl⟩
    rw [hSame hOther] at hMem
    exact h.outbox row (mem_ofOwner.mp hMem).1 hOther
  · intro row hRow hOther id hOwn
    have hMem : row ∈ ((applyAll writes database).ofTenant row.tenantId).chunks :=
      mem_ofOwner.mpr ⟨hRow, rfl⟩
    rw [hSame hOther] at hMem
    exact h.chunks row (mem_ofOwner.mp hMem).1 hOther id (effect.ownDocument hOwn)
  · intro row hRow hOther id hOwn
    have hMem : row ∈ ((applyAll writes database).ofTenant row.tenantId).entities :=
      mem_ofOwner.mpr ⟨hRow, rfl⟩
    rw [hSame hOther] at hMem
    exact h.entities row (mem_ofOwner.mp hMem).1 hOther id (effect.ownDocument hOwn)

end Effect

/-- An identifier that an operation makes is in use among all rows if it is in use among
the tenant's. -/
theorem select_made (fresh : Fresh tenant identifiers database) {id : UUID}
    (hMade : identifiers.made id) :
    select DocumentRow.id id (database.ofTenant tenant).documents =
      select DocumentRow.id id database.documents := by
  apply select_ofOwner
  intro row hRow hId
  by_contra hOther
  exact fresh.documents row hRow hOther (hId ▸ hMade)

/-- Rows below the tenant's documents can be added to a table if they can be added to the
tenant's rows of it. -/
theorem insertable_ofTenant {Row : Type} {id : Row → UUID} {owner : Row → String × UUID}
    {rows added : List Row} (keyed : Keyed id rows)
    (hAdded : ∀ row ∈ added, (owner row).1 = tenant)
    (hOther : ∀ row ∈ rows, (owner row).1 ≠ tenant → ∀ new ∈ added,
      (select DocumentRow.ownerKey (owner new) database.documents).isSome → id row ≠ id new) :
    insertable id owner (database.ofTenant tenant).documents
        (ofOwner (fun row => (owner row).1) tenant rows) added =
      insertable id owner database.documents rows added := by
  have hOwners (new : Row) (hNew : new ∈ added) :
      select DocumentRow.ownerKey (owner new) (database.ofTenant tenant).documents =
        select DocumentRow.ownerKey (owner new) database.documents :=
    select_ofOwner fun row _ hKey => (congrArg Prod.fst hKey).trans (hAdded new hNew)
  have hOwned : (∀ new ∈ added, (select DocumentRow.ownerKey (owner new)
      (database.ofTenant tenant).documents).isSome) ↔
        ∀ new ∈ added, (select DocumentRow.ownerKey (owner new) database.documents).isSome :=
    forall₂_congr fun new hNew => by rw [hOwners new hNew]
  rw [insertable, insertable, decide_eq_decide, hOwned]
  apply and_congr_left
  intro hSome
  exact keyed_append_ofOwner keyed fun row hRow hTenant new hNew =>
    hOther row hRow hTenant new hNew (hSome new hNew)

/-- What a statement of a tenant does is settled by the tenant's rows. -/
theorem execute_ofTenant (consistent : database.Consistent)
    (fresh : Fresh tenant identifiers database)
    (hStatement : statement.OwnedBy tenant identifiers) :
    statement.execute (database.ofTenant tenant) now = statement.execute database now := by
  have hDocument {owner : String × UUID} (hTenant : owner.1 = tenant)
      (hSome : (select DocumentRow.ownerKey owner database.documents).isSome) :
      OwnDocument tenant identifiers database owner.2 := by
    obtain ⟨row, hRow⟩ := Option.isSome_iff_exists.mp hSome
    obtain ⟨hMem, hKey⟩ := select_mem hRow
    exact Or.inr ⟨row, hMem, (congrArg Prod.fst hKey).trans hTenant, congrArg Prod.snd hKey⟩
  cases statement with
  | selectByContent tenantId sha256 =>
      cases hStatement
      rw [Statement.execute, Database.findByContent_ofTenant, Statement.execute]
  | selectDocument tenantId documentId =>
      cases hStatement
      rw [Statement.execute, Database.getDocument_ofTenant, Statement.execute]
  | insertDocument record =>
      obtain ⟨rfl, hMade⟩ := hStatement
      rw [Statement.execute, Database.findByContent_ofTenant, select_made fresh hMade,
        Statement.execute]
  | insertOutbox row =>
      obtain ⟨rfl, hMade⟩ := hStatement
      have hInsertable := @insertable_ofTenant row.tenantId database OutboxRow OutboxRow.id
        (fun row => (row.tenantId, row.aggregateId)) database.outbox [row] consistent.outbox
        (fun new hNew => by rw [List.mem_singleton.mp hNew])
        (fun old hOld hOther new hNew _ hSame => by
          rw [List.mem_singleton.mp hNew] at hSame
          exact fresh.outbox old hOld hOther (hSame ▸ hMade))
      simp only [Statement.execute]
      rw [← hInsertable]
      rfl
  | upsertDocument record =>
      obtain ⟨rfl, hMade⟩ := hStatement
      rw [Statement.execute, Database.findByContent_ofTenant, select_made fresh hMade,
        Statement.execute]
  | deleteChunks tenantId documentId => rfl
  | insertChunks rows =>
      have hInsertable := @insertable_ofTenant tenant database ChunkRow ChunkRow.id
        (fun row => (row.tenantId, row.documentId)) database.chunks rows consistent.chunks
        (fun new hNew => (hStatement new hNew).1)
        (fun old hOld hOther new hNew hSome hSame =>
          fresh.chunks old hOld hOther _ (hDocument (hStatement new hNew).1 hSome)
            (hSame ▸ (hStatement new hNew).2))
      simp only [Statement.execute]
      rw [← hInsertable]
      rfl
  | deleteEntities tenantId documentId => rfl
  | insertEntities rows =>
      have hInsertable := @insertable_ofTenant tenant database EntityRow EntityRow.id
        (fun row => (row.tenantId, row.documentId)) database.entities rows consistent.entities
        (fun new hNew => (hStatement new hNew).1)
        (fun old hOld hOther new hNew hSome hSame =>
          fresh.entities old hOld hOther _ (hDocument (hStatement new hNew).1 hSome)
            (hSame ▸ (hStatement new hNew).2))
      simp only [Statement.execute]
      rw [← hInsertable]
      rfl
  | updateStatus tenantId documentId status error =>
      cases hStatement
      rw [Statement.execute, Database.findById_ofTenant, Statement.execute]
  | lockDocument tenantId documentId =>
      cases hStatement
      rw [Statement.execute, Database.findById_ofTenant, Statement.execute]

end Statements

end DocInsight.Storage
