import DocInsight.Library.Binary64
import DocInsight.Storage.Columns
import DocInsight.Testing.Rows

/-! The repository that offline tests use in place of the one over PostgreSQL. It keeps each
document with its derived rows as one nested record. -/
namespace DocInsight.Testing

open DocInsight.Contracts DocInsight.Python DocInsight.Storage DocInsight.Worker Simulation Table

structure InMemoryRepository where
  documents : List ((String × UUID) × StoredDocument) := []
  events : List DocumentUploaded := []

namespace InMemoryRepository

def findBySha256 (tenantId sha256 : String) (memory : InMemoryRepository) :
    Option StoredDocument :=
  select (fun document : StoredDocument => document.contentKey) (tenantId, sha256)
    (memory.documents.map Prod.snd)

/-- `created_at.timestamp()` is a float of seconds. -/
def seconds (time : Timestamp) : ℚ := Binary64.nearest (time / 10 ^ 6)

/-- The documents of a tenant between two places, the newest first. -/
def page (tenantId : String) (limit offset : Int) (memory : InMemoryRepository) :
    List StoredDocument :=
  let rows := (memory.documents.filter fun item => item.1.1 = tenantId).map Prod.snd
  let sorted := orderBy (fun row : StoredDocument =>
    toLex (OrderDual.toDual (seconds row.createdAt), row.id.bits.toNat)) rows
  (sorted.drop offset.toNat).take limit.toNat

def listDocuments (tenantId : String) (limit offset : Int) (memory : InMemoryRepository) :
    Except Failure (List StoredDocument) :=
  if ¬ (1 ≤ limit ∧ limit ≤ 100) ∨ offset < 0 then .error (.value "ValueError")
  else .ok (memory.page tenantId limit offset)

def registerUpload (record : DocumentRow) (eventId : UUID) (memory : InMemoryRepository) :
    Except Failure StoredDocument × InMemoryRepository :=
  match memory.findBySha256 record.tenantId record.sha256 with
  | some previous => (.ok previous, memory)
  | none =>
      match uploadedEvent record eventId none with
      | .error error => (.error error, memory)
      | .ok event =>
          (.ok (storedRow record),
            { documents := setItem memory.documents record.ownerKey (storedRow record)
              events := memory.events ++ [event] })

def markStatus (tenantId : String) (documentId : UUID) (status : String) (error : Option String)
    (memory : InMemoryRepository) : Except Failure Unit × InMemoryRepository :=
  match statusNamed status with
  | none => (.error (.value "ValueError"), memory)
  | some status =>
      match getItem memory.documents (tenantId, documentId) with
      | none => (.error (.lookup "LookupError"), memory)
      | some document =>
          let marked : StoredDocument :=
            { document with status, error := if status = .failed then error else none }
          (.ok (), { memory with
            documents := setItem memory.documents (tenantId, documentId) marked })

/-- What the record of new output takes over from the document with its content. -/
def takeOver (record previous : StoredDocument) : StoredDocument :=
  { record with
    id := previous.id
    createdAt := previous.createdAt
    sizeBytes := previous.sizeBytes
    objectKey := previous.objectKey
    processedAt := some (max (record.processedAt.getD previous.createdAt)
      (previous.processedAt.getD previous.createdAt + 1)) }

def upsertDocument (dimension : Nat) (tenantId filename : String) (document : Document)
    (fresh : Supply) (memory : InMemoryRepository) :
    Except Failure StoredDocument × InMemoryRepository :=
  match prepareDocument tenantId filename document fresh.identifier fresh.now with
  | .error _ => (.error (.value "ValueError"), memory)
  | .ok record =>
      match validateChunks dimension record.chunks with
      | .error _ => (.error (.value "ValueError"), memory)
      | .ok _ =>
          let record := match memory.findBySha256 tenantId document.sha256 with
            | some previous => takeOver record previous
            | none => record
          (.ok record, { memory with
            documents := setItem memory.documents (tenantId, record.id) record })

def getDocument (tenantId : String) (documentId : UUID) (memory : InMemoryRepository) :
    Option StoredDocument :=
  getItem memory.documents (tenantId, documentId)

def replaceChunksAndEntities (dimension : Nat) (tenantId : String) (documentId : UUID)
    (chunks : List Chunk) (entities : List Entity) (memory : InMemoryRepository) :
    Except Failure Unit × InMemoryRepository :=
  match memory.getDocument tenantId documentId with
  | none => (.error (.lookup "LookupError"), memory)
  | some document =>
      match validateChunks dimension chunks with
      | .error _ => (.error (.value "ValueError"), memory)
      | .ok _ =>
          (.ok (), { memory with
            documents := setItem memory.documents (tenantId, documentId)
              { document with chunks, entities } })

def repository (dimension : Nat) :
    Component InMemoryRepository RepositoryCall RepositoryCall.Answer
  | memory, ⟨.registerUpload tenantId filename sha256 mediaType sizeBytes objectKey, fresh⟩ =>
      memory.registerUpload
        (uploadRecord tenantId filename sha256 mediaType sizeBytes objectKey fresh) fresh.eventId
  | memory, ⟨.findBySha256 tenantId sha256, _⟩ => (.ok (memory.findBySha256 tenantId sha256), memory)
  | memory, ⟨.listDocuments tenantId limit offset, _⟩ =>
      (memory.listDocuments tenantId limit offset, memory)
  | memory, ⟨.markStatus tenantId documentId status error, _⟩ =>
      memory.markStatus tenantId documentId status error
  | memory, ⟨.upsertDocument tenantId filename document, fresh⟩ =>
      memory.upsertDocument dimension tenantId filename document fresh
  | memory, ⟨.replaceChunksAndEntities tenantId documentId chunks entities, _⟩ =>
      memory.replaceChunksAndEntities dimension tenantId documentId chunks entities
  | memory, ⟨.getDocument tenantId documentId, _⟩ =>
      (.ok (memory.getDocument tenantId documentId), memory)

end InMemoryRepository

/-- A document without derived rows. -/
def Bare (document : StoredDocument) : Prop := document.chunks = [] ∧ document.entities = []

/-- Chunks and entities in the order in which they are read. -/
structure Placed (chunks : List Chunk) (entities : List Entity) : Prop where
  chunks : chunks.Pairwise (chunkPlace · ≤ chunkPlace ·)
  entities : entities.Pairwise (entityPlace · < entityPlace ·)

/-- An output passes the checks that precede its writes. -/
def accepted (dimension : Nat) (tenantId filename : String) (document : Document)
    (fresh : Supply) : Bool :=
  match prepareDocument tenantId filename document fresh.identifier fresh.now with
  | .error _ => false
  | .ok record => (validateChunks dimension record.chunks).toBool

/-- Derived rows that are written come in the order in which they are read. -/
def placedRequest : RepositoryRequest → Prop
  | .upsertDocument _ _ document => Placed document.chunks document.entities
  | .replaceChunksAndEntities _ _ chunks entities => Placed chunks entities
  | .registerUpload _ _ _ _ _ _ | .findBySha256 _ _ | .listDocuments _ _ _ | .markStatus _ _ _ _
  | .getDocument _ _ => True

/-- The time in the year 2242 up to which floats of seconds tell microseconds apart. -/
def lastResolved : Timestamp := 2 ^ 33 * 10 ^ 6

/-- The calls as callers make them, with identifiers that are new and a clock that floats
resolve. -/
def Orderly (memory : InMemoryRepository) (call : RepositoryCall) : Prop :=
  (∀ item ∈ memory.documents, item.1.2 ≠ call.fresh.identifier) ∧
    call.fresh.now < lastResolved ∧ placedRequest call.request

/-- What a request may find and store to be answered alike: uploads are registered for a tenant
that has a name, documents that are returned as metadata have no derived rows, and output
replaces that of an earlier time. -/
def conditionFor (dimension : Nat) (memory : InMemoryRepository) (request : RepositoryRequest)
    (fresh : Supply) : Prop :=
  match request with
  | .registerUpload tenantId _ sha256 _ _ _ =>
      tenantId ≠ "" ∧ ∀ previous ∈ memory.findBySha256 tenantId sha256, Bare previous
  | .findBySha256 tenantId sha256 => ∀ found ∈ memory.findBySha256 tenantId sha256, Bare found
  | .listDocuments tenantId limit offset =>
      1 ≤ limit ∧ limit ≤ 100 ∧ 0 ≤ offset →
        ∀ document ∈ memory.page tenantId limit offset, Bare document
  | .upsertDocument tenantId filename document =>
      accepted dimension tenantId filename document fresh = true →
        ∀ previous ∈ memory.findBySha256 tenantId document.sha256,
          previous.processedAt.getD previous.createdAt < fresh.now
  | .markStatus _ _ _ _ | .replaceChunksAndEntities _ _ _ _ | .getDocument _ _ => True

/-- A call is answered alike: its values fit their columns, and it meets its condition. -/
def AnsweredAlike (dimension : Nat) (memory : InMemoryRepository) (call : RepositoryCall) : Prop :=
  columnsHold dimension
      (fun tenantId documentId => (memory.getDocument tenantId documentId).isSome) call = true ∧
    conditionFor dimension memory call.request call.fresh

/-- A row with its derived rows. -/
def nested (database : Database) (row : DocumentRow) : StoredDocument :=
  { row with
    chunks := (chunksOf database row).map ChunkRow.chunk
    entities := (entitiesOf database row).map EntityRow.entity }

/-- The fake has a nested record for every row of the table of documents. -/
structure Mirrored (uuid5 : UUID → String → UUID) (memory : InMemoryRepository)
    (database : Database) : Prop where
  filed : Filed uuid5 database
  documents : memory.documents = items DocumentRow.ownerKey (nested database) database.documents
  placed : ∀ row ∈ database.documents,
    Placed (nested database row).chunks (nested database row).entities
  resolved : ∀ row ∈ database.documents, row.createdAt < lastResolved

/-- Floats keep the order of times up to then. -/
theorem seconds_lt_seconds {first second : Timestamp} (h : first < second)
    (hResolved : second < lastResolved) :
    InMemoryRepository.seconds first < InMemoryRepository.seconds second := by
  have hUnit : (0 : ℚ) < 10 ^ 6 := by norm_num
  have hPlace {time : Timestamp} (hTime : time < lastResolved) :
      Binary64.lastPlace ((time : ℚ) / 10 ^ 6) ≤ 2 ^ (-20 : ℤ) := by
    rcases Nat.eq_zero_or_pos time with rfl | hPos
    · simp only [Nat.cast_zero, zero_div, Binary64.lastPlace, abs_zero, Int.log_zero_right]
      norm_num
    · apply @Binary64.lastPlace_le _ 33
      · positivity
      · rw [div_lt_iff₀ hUnit]
        exact_mod_cast hTime
  apply Binary64.nearest_lt_nearest (hPlace (h.trans hResolved)) (hPlace hResolved)
  -- A microsecond is more than the last place of the floats up to then.
  have hStep : (first : ℚ) + 1 ≤ second := by exact_mod_cast h
  have hMicrosecond : (2 : ℚ) ^ (-20 : ℤ) < 1 / 10 ^ 6 := by norm_num
  calc (first : ℚ) / 10 ^ 6 + 2 ^ (-20 : ℤ) < (first : ℚ) / 10 ^ 6 + 1 / 10 ^ 6 := by linarith
    _ = ((first : ℚ) + 1) / 10 ^ 6 := by ring
    _ ≤ (second : ℚ) / 10 ^ 6 := div_le_div_of_nonneg_right hStep hUnit.le

/-- So documents are sorted by their times. -/
theorem seconds_order {first second : Timestamp} (hFirst : first < lastResolved)
    (hSecond : second < lastResolved) (lower upper : Nat) :
    toLex (OrderDual.toDual (InMemoryRepository.seconds first), lower) ≤
        toLex (OrderDual.toDual (InMemoryRepository.seconds second), upper) ↔
      toLex (OrderDual.toDual first, lower) ≤ toLex (OrderDual.toDual second, upper) := by
  rw [Prod.Lex.toLex_le_toLex, Prod.Lex.toLex_le_toLex]
  simp only [OrderDual.toDual_lt_toDual, OrderDual.toDual_inj]
  rcases lt_trichotomy second first with hLess | rfl | hMore
  · exact iff_of_true (Or.inl (seconds_lt_seconds hLess hFirst)) (Or.inl hLess)
  · simp
  · have hSeconds := seconds_lt_seconds hMore hSecond
    constructor
    · rintro (h | ⟨h, _⟩)
      · exact absurd h hSeconds.asymm
      · exact absurd h hSeconds.ne
    · rintro (h | ⟨h, _⟩)
      · exact absurd h hMore.asymm
      · exact absurd h hMore.ne

section Mirrored
variable {uuid5 : UUID → String → UUID} {dimension : Nat} {memory : InMemoryRepository}
  {database : Database}

theorem nested_eq_storedRow {row : DocumentRow} :
    nested database row = storedRow row ↔ Bare (nested database row) := by
  constructor
  · intro h
    rw [h]
    exact ⟨rfl, rfl⟩
  · rintro ⟨hChunks, hEntities⟩
    simp only [nested] at hChunks hEntities
    rw [nested, hChunks, hEntities, storedRow]

theorem Mirrored.findBySha256 (mirrored : Mirrored uuid5 memory database)
    (tenantId sha256 : String) :
    memory.findBySha256 tenantId sha256 =
      (database.findByContent tenantId sha256).map (nested database) := by
  rw [InMemoryRepository.findBySha256, mirrored.documents, items, List.map_map, select,
    List.find?_map]
  rfl

theorem Mirrored.getItem (mirrored : Mirrored uuid5 memory database) (tenantId : String)
    (documentId : UUID) :
    Python.getItem memory.documents (tenantId, documentId) =
      (database.findById tenantId documentId).map (nested database) := by
  rw [mirrored.documents, getItem_items]
  rfl

/-- Derived rows are read in the order in which they are kept. -/
theorem Mirrored.getDocument (mirrored : Mirrored uuid5 memory database) (tenantId : String)
    (documentId : UUID) :
    memory.getDocument tenantId documentId = database.getDocument tenantId documentId := by
  rw [InMemoryRepository.getDocument, mirrored.getItem, Database.getDocument]
  cases hFound : database.findById tenantId documentId with
  | none => rfl
  | some row =>
      obtain ⟨hRow, hKey⟩ := select_mem hFound
      obtain ⟨rfl, rfl⟩ := Prod.mk.inj hKey
      have placed := mirrored.placed row hRow
      have hChunks := List.Pairwise.insertionSort_eq (List.pairwise_map.mp placed.chunks)
      have hEntities := List.Pairwise.insertionSort_eq
        (List.pairwise_map.mp (placed.entities.imp fun hLt => hLt.le))
      rw [Option.map_some, Option.map_some, nested]
      conv_lhs => rw [← hChunks, ← hEntities]
      rfl

/-- The rows of a page. -/
def pageRows (tenantId : String) (limit offset : Int) (database : Database) : List DocumentRow :=
  let rows := database.documents.filter fun row => row.tenantId = tenantId
  let sorted := orderBy (fun row => toLex (OrderDual.toDual row.createdAt, row.id.bits.toNat)) rows
  (sorted.drop offset.toNat).take limit.toNat

/-- A page of documents is the page of their rows. -/
theorem Mirrored.page (mirrored : Mirrored uuid5 memory database) (tenantId : String)
    (limit offset : Int) :
    memory.page tenantId limit offset =
      (pageRows tenantId limit offset database).map (nested database) := by
  have hRows : (memory.documents.filter fun item => item.1.1 = tenantId).map Prod.snd =
      (database.documents.filter fun row => row.tenantId = tenantId).map (nested database) := by
    rw [mirrored.documents, items, List.filter_map, List.map_map]
    rfl
  have hSorted : orderBy (fun row : DocumentRow =>
        toLex (OrderDual.toDual (InMemoryRepository.seconds row.createdAt), row.id.bits.toNat))
        (database.documents.filter fun row => row.tenantId = tenantId) =
      orderBy (fun row => toLex (OrderDual.toDual row.createdAt, row.id.bits.toNat))
        (database.documents.filter fun row => row.tenantId = tenantId) := by
    apply orderBy_congr
    intro first hFirst second hSecond
    exact seconds_order (mirrored.resolved first (List.mem_of_mem_filter hFirst))
      (mirrored.resolved second (List.mem_of_mem_filter hSecond)) _ _
  rw [InMemoryRepository.page, hRows, orderBy_map, pageRows, List.map_take, List.map_drop, ← hSorted]
  rfl

theorem listDocuments_ok {limit offset : Int} (h : 1 ≤ limit ∧ limit ≤ 100 ∧ 0 ≤ offset)
    (tenantId : String) :
    listDocuments tenantId limit offset database =
      .ok ((pageRows tenantId limit offset database).map storedRow) := by
  rw [listDocuments, if_neg (by omega)]
  rfl

theorem Mirrored.keyed (mirrored : Mirrored uuid5 memory database) :
    Keyed DocumentRow.ownerKey database.documents := by
  apply List.Nodup.of_map Prod.snd
  rw [List.map_map]
  exact mirrored.filed.unique.ids

theorem nested_congr {after : Database} (hChunks : after.chunks = database.chunks)
    (hEntities : after.entities = database.entities) : nested after = nested database := by
  funext row
  rw [nested, nested, chunksOf, entitiesOf, hChunks, hEntities]
  rfl

theorem nested_replaceChildren (row : DocumentRow) (chunks : List Chunk) (entities : List Entity) :
    nested (database.replaceChildren uuid5 row.tenantId row.id chunks entities) row =
      { row with chunks, entities } := by
  rw [nested, chunksOf_replaceChildren, entitiesOf_replaceChildren, chunkRows_chunk,
    entityRows_entity]

theorem nested_replaceChildren_of_ne {row other : DocumentRow} (chunks : List Chunk)
    (entities : List Entity) (h : other.id ≠ row.id) :
    nested (database.replaceChildren uuid5 row.tenantId row.id chunks entities) other =
      nested database other := by
  rw [nested, chunksOf_replaceChildren_of_ne _ _ h, entitiesOf_replaceChildren_of_ne _ _ h]
  rfl

/-- A document that is not known has no derived rows. -/
theorem Mirrored.nested_fresh (mirrored : Mirrored uuid5 memory database) {record : DocumentRow}
    (hFresh : ∀ row ∈ database.documents, row.id ≠ record.id) :
    nested database record = storedRow record := by
  have hOther : ∀ row ∈ database.documents, row.ownerKey ≠ record.ownerKey :=
    fun row hRow hKey => hFresh row hRow (congrArg Prod.snd hKey)
  apply nested_eq_storedRow.mpr
  simp only [Bare, nested, mirrored.filed.owned.chunksOf_eq_nil hOther,
    mirrored.filed.owned.entitiesOf_eq_nil hOther, List.map_nil, and_self]

theorem select_fresh {record : DocumentRow}
    (hFresh : ∀ row ∈ database.documents, row.id ≠ record.id) :
    select DocumentRow.ownerKey record.ownerKey database.documents = none := by
  rw [select_eq_none]
  intro row hRow hKey
  exact hFresh row hRow (congrArg Prod.snd hKey)

/-- A new row without derived rows is kept on both sides. -/
theorem Mirrored.append (mirrored : Mirrored uuid5 memory database) {after : Database}
    {record : DocumentRow} (events : List DocumentUploaded)
    (hFresh : ∀ row ∈ database.documents, row.id ≠ record.id)
    (hResolved : record.createdAt < lastResolved) (filed : Filed uuid5 after)
    (hDocuments : after.documents = database.documents ++ [record])
    (hChunks : after.chunks = database.chunks) (hEntities : after.entities = database.entities) :
    Mirrored uuid5 ⟨setItem memory.documents record.ownerKey (nested database record), events⟩
      after where
  filed := filed
  documents := by
    rw [nested_congr hChunks hEntities, hDocuments, mirrored.documents]
    exact setItem_append (select_fresh hFresh) fun _ _ => rfl
  placed row hRow := by
    rw [hDocuments] at hRow
    rw [nested_congr hChunks hEntities]
    rcases List.mem_append.mp hRow with hOld | hLast
    · exact mirrored.placed row hOld
    · rw [List.mem_singleton.mp hLast, mirrored.nested_fresh hFresh]
      exact ⟨List.Pairwise.nil, List.Pairwise.nil⟩
  resolved row hRow := by
    rw [hDocuments] at hRow
    rcases List.mem_append.mp hRow with hOld | hLast
    · exact mirrored.resolved row hOld
    · rw [List.mem_singleton.mp hLast]
      exact hResolved

theorem Mirrored.register (mirrored : Mirrored uuid5 memory database) {record : DocumentRow}
    (eventId : UUID) (event : DocumentUploaded) (events : List DocumentUploaded)
    (hFresh : ∀ row ∈ database.documents, row.id ≠ record.id)
    (hResolved : record.createdAt < lastResolved)
    (hAbsent : database.findByContent record.tenantId record.sha256 = none) :
    Mirrored uuid5 ⟨setItem memory.documents record.ownerKey (storedRow record), events⟩
      (database.register record eventId event) := by
  have filed := mirrored.filed.register eventId event hFresh hAbsent
  rw [Database.register, hAbsent] at filed ⊢
  rw [← mirrored.nested_fresh hFresh]
  exact mirrored.append events hFresh hResolved filed rfl rfl rfl

/-- A change of metadata is made on both sides. -/
theorem Mirrored.updateWhere (mirrored : Mirrored uuid5 memory database) {after : Database}
    {condition : DocumentRow → Bool} {change : DocumentRow → DocumentRow} {row : DocumentRow}
    (hRow : row ∈ database.documents)
    (hOnly : ∀ other ∈ database.documents, condition other = true ↔ other = row)
    (hChange : ∀ row, SameIdentity row (change row))
    (filed : Filed uuid5 after)
    (hDocuments : after.documents = Table.updateWhere condition change database.documents)
    (hChunks : after.chunks = database.chunks) (hEntities : after.entities = database.entities) :
    Mirrored uuid5
      { memory with
        documents := setItem memory.documents row.ownerKey (nested database (change row)) }
      after where
  filed := filed
  documents := by
    rw [nested_congr hChunks hEntities, hDocuments, mirrored.documents]
    exact setItem_updateWhere mirrored.keyed hRow hOnly (hChange row).ownerKey fun _ _ _ => rfl
  placed other hOther := by
    rw [hDocuments] at hOther
    obtain ⟨old, hOld, rfl⟩ := mem_updateWhere.mp hOther
    rw [nested_congr hChunks hEntities]
    split_ifs
    · have hSame : (nested database (change old)).chunks = (nested database old).chunks ∧
          (nested database (change old)).entities = (nested database old).entities := by
        simp only [nested, chunksOf, entitiesOf, (hChange old).tenantId, (hChange old).id,
          and_self]
      rw [hSame.1, hSame.2]
      exact mirrored.placed old hOld
    · exact mirrored.placed old hOld
  resolved other hOther := by
    rw [hDocuments] at hOther
    obtain ⟨old, hOld, rfl⟩ := mem_updateWhere.mp hOther
    split_ifs
    · rw [(hChange old).createdAt]
      exact mirrored.resolved old hOld
    · exact mirrored.resolved old hOld

/-- Derived rows are replaced on both sides. -/
theorem Mirrored.replaceChildren (mirrored : Mirrored uuid5 memory database) {row : DocumentRow}
    (hRow : row ∈ database.documents) {chunks : List Chunk} {entities : List Entity}
    (placed : Placed chunks entities) :
    Mirrored uuid5
      { memory with
        documents := setItem memory.documents row.ownerKey { row with chunks, entities } }
      (database.replaceChildren uuid5 row.tenantId row.id chunks entities) where
  filed := mirrored.filed.replaceChildren hRow chunks entities
  documents := by
    rw [← @nested_replaceChildren uuid5, mirrored.documents]
    apply setItem_items mirrored.keyed hRow
    intro other hOther hNe
    apply nested_replaceChildren_of_ne
    exact fun h => hNe (mirrored.filed.unique.eq_of_id hOther hRow h)
  placed other hOther := by
    by_cases hSame : other.id = row.id
    · obtain rfl := mirrored.filed.unique.eq_of_id hOther hRow hSame
      rw [nested_replaceChildren]
      exact placed
    · rw [nested_replaceChildren_of_ne _ _ hSame]
      exact mirrored.placed other hOther
  resolved := mirrored.resolved

theorem registerUpload_ne_other (memory : InMemoryRepository) (record : DocumentRow)
    (eventId : UUID) (name : String) :
    (memory.registerUpload record eventId).1 ≠ .error (.other name) := by
  simp only [InMemoryRepository.registerUpload, uploadedEvent]
  split
  · intro h
    cases h
  · split_ifs
    · intro h
      cases h
    · intro h
      cases h

/-- The row of an upsert is kept on both sides, with the derived rows that it had. -/
theorem Mirrored.upsertRow (mirrored : Mirrored uuid5 memory database) {record : DocumentRow}
    (now : Timestamp) (hFresh : ∀ row ∈ database.documents, row.id ≠ record.id)
    (hResolved : record.createdAt < lastResolved) :
    let row := Operation.outputRow database record now
    Mirrored uuid5
      { memory with documents := setItem memory.documents row.ownerKey (nested database row) }
      (database.upsertRow record now) := by
  have filed := mirrored.filed.upsertRow now hFresh
  rw [Database.upsertRow] at filed ⊢
  rw [Operation.outputRow]
  cases hFound : database.findByContent record.tenantId record.sha256 with
  | none =>
      rw [hFound] at filed
      exact mirrored.append memory.events hFresh hResolved filed rfl rfl rfl
  | some row =>
      rw [hFound] at filed
      obtain ⟨hRow, hKey⟩ := select_mem hFound
      have hOnly : ∀ other ∈ database.documents,
          decide (other.contentKey = record.contentKey) = true ↔ other = row := by
        intro other hOther
        have hSame : row.contentKey = record.contentKey := hKey
        rw [decide_eq_true_eq, ← hSame]
        exact ⟨mirrored.filed.unique.contents.eq_of_key hOther hRow, congrArg _⟩
      exact mirrored.updateWhere hRow hOnly (sameIdentity_replacedRow record now) filed rfl rfl rfl

/-- Output is kept on both sides. -/
theorem Mirrored.output (mirrored : Mirrored uuid5 memory database) {record : StoredDocument}
    (now : Timestamp) (hFresh : ∀ row ∈ database.documents, row.id ≠ record.id)
    (hResolved : record.createdAt < lastResolved)
    (placed : Placed record.chunks record.entities) :
    let row := Operation.outputRow database record.toDocumentRow now
    Mirrored uuid5
      { memory with
        documents := setItem memory.documents row.ownerKey
          { row with chunks := record.chunks, entities := record.entities } }
      (database.upsertDocument uuid5 record now) := by
  intro row
  have hContent : row.contentKey = record.contentKey :=
    contentKey_outputRow record.toDocumentRow now
  have hTenant : row.tenantId = record.tenantId := congrArg Prod.fst hContent
  have hRow : row ∈ (database.upsertRow record.toDocumentRow now).documents :=
    outputRow_mem record now
  have replaced := (mirrored.upsertRow now hFresh hResolved).replaceChildren hRow placed
  rw [upsertDocument_eq, ← hTenant]
  rwa [setItem_setItem] at replaced

/-- The fake raises no error of the database. -/
theorem answer_ne_other (memory : InMemoryRepository) (call : RepositoryCall) (name : String) :
    (InMemoryRepository.repository dimension memory call).1 ≠ .error (.other name) := by
  obtain ⟨request, fresh⟩ := call
  cases request with
  | registerUpload tenantId filename sha256 mediaType sizeBytes objectKey =>
      exact registerUpload_ne_other memory _ _ name
  | findBySha256 | getDocument => exact nofun
  | listDocuments tenantId limit offset =>
      simp only [InMemoryRepository.repository, InMemoryRepository.listDocuments]
      split_ifs
      · exact nofun
      · exact nofun
  | markStatus tenantId documentId status error =>
      simp only [InMemoryRepository.repository, InMemoryRepository.markStatus]
      split
      · exact nofun
      · split
        · exact nofun
        · exact nofun
  | upsertDocument tenantId filename document =>
      simp only [InMemoryRepository.repository, InMemoryRepository.upsertDocument]
      split
      · exact nofun
      · split
        · exact nofun
        · exact nofun
  | replaceChunksAndEntities tenantId documentId chunks entities =>
      simp only [InMemoryRepository.repository, InMemoryRepository.replaceChunksAndEntities]
      split
      · exact nofun
      · split
        · exact nofun
        · exact nofun

/-- Related repositories find the same values fit. -/
theorem Mirrored.columnsHold (mirrored : Mirrored uuid5 memory database) (call : RepositoryCall) :
    Storage.columnsHold dimension
      (fun tenantId documentId => (memory.getDocument tenantId documentId).isSome) call =
    Storage.columnsHold dimension
      (fun tenantId id => (database.findById tenantId id).isSome) call := by
  congr 1
  funext tenantId documentId
  rw [InMemoryRepository.getDocument, mirrored.getItem, Option.isSome_map]

theorem map_nested_eq (found : Option DocumentRow) :
    found.map (nested database) = found.map storedRow ↔
      ∀ document ∈ found.map (nested database), Bare document := by
  cases found with
  | none => simp
  | some row => simp [nested_eq_storedRow]

theorem map_nested_eq_list (rows : List DocumentRow) :
    rows.map (nested database) = rows.map storedRow ↔
      ∀ document ∈ rows.map (nested database), Bare document := by
  rw [List.map_inj_left, List.forall_mem_map]
  exact forall₂_congr fun row _ => nested_eq_storedRow

/-- The parent of a trace decides nothing about an event. -/
theorem uploadedEvent_cases (record : DocumentRow) (eventId : UUID) :
    (∀ traceparent, ∃ event, uploadedEvent record eventId traceparent = .ok event) ∨
      ∃ error, ∀ traceparent, uploadedEvent record eventId traceparent = .error error := by
  by_cases hValid : validTenant record.tenantId = true ∧ validDigest record.sha256 = true
  · exact Or.inl fun traceparent => ⟨_, dif_pos hValid⟩
  · exact Or.inr ⟨_, fun traceparent => dif_neg hValid⟩

/-- An upload gets the same record, and both sides keep it. -/
theorem Mirrored.registerUpload (mirrored : Mirrored uuid5 memory database) {record : DocumentRow}
    (fresh : Supply) (hFresh : ∀ row ∈ database.documents, row.id ≠ record.id)
    (hResolved : record.createdAt < lastResolved) :
    ((memory.registerUpload record fresh.eventId).1 =
        (PostgresRepository.registerUpload record fresh database).1 ↔
      record.tenantId ≠ "" ∧
        ∀ previous ∈ memory.findBySha256 record.tenantId record.sha256, Bare previous) ∧
    (record.tenantId ≠ "" →
      Mirrored uuid5 (memory.registerUpload record fresh.eventId).2
        (PostgresRepository.registerUpload record fresh database).2) := by
  by_cases hName : record.tenantId = ""
  · have hRefused : rowRefused record.tenantId = true := by
      rwa [rowRefused, String.isEmpty_iff]
    rw [PostgresRepository.registerUpload, if_pos hRefused]
    exact ⟨iff_of_false (registerUpload_ne_other memory record _ _) fun h => h.1 hName,
      absurd hName⟩
  · have hAllowed : ¬rowRefused record.tenantId = true := by
      rwa [rowRefused, String.isEmpty_iff]
    rw [PostgresRepository.registerUpload, InMemoryRepository.registerUpload, if_neg hAllowed,
      mirrored.findBySha256]
    cases hFound : database.findByContent record.tenantId record.sha256 with
    | some row =>
        simp only [Option.map_some, Option.mem_some_iff, forall_eq', Except.ok.injEq]
        exact ⟨by rw [nested_eq_storedRow, and_iff_right hName], fun _ => mirrored⟩
    | none =>
        have hNone : ∀ previous ∈ (none : Option StoredDocument), Bare previous :=
          fun previous h => absurd h (Option.not_mem_none previous)
        rcases uploadedEvent_cases record fresh.eventId with hValid | ⟨error, hError⟩
        · obtain ⟨kept, hKept⟩ := hValid none
          obtain ⟨stored, hStored⟩ := hValid fresh.traceparent
          simp only [Option.map_none, hKept, hStored]
          exact ⟨iff_of_true trivial ⟨hName, hNone⟩, fun _ =>
            mirrored.register stored.eventId stored _ hFresh hResolved hFound⟩
        · simp only [Option.map_none, hError]
          exact ⟨iff_of_true trivial ⟨hName, hNone⟩, fun _ => mirrored⟩

/-- A change of status finds the same document and changes it alike. -/
theorem Mirrored.markStatus (mirrored : Mirrored uuid5 memory database) (tenantId : String)
    (documentId : UUID) (status : String) (error : Option String) :
    (memory.markStatus tenantId documentId status error).1 =
        (PostgresRepository.markStatus tenantId documentId status error database).1 ∧
      Mirrored uuid5 (memory.markStatus tenantId documentId status error).2
        (PostgresRepository.markStatus tenantId documentId status error database).2 := by
  rw [InMemoryRepository.markStatus, PostgresRepository.markStatus]
  cases hStatus : statusNamed status with
  | none => exact ⟨rfl, mirrored⟩
  | some named =>
      simp only [mirrored.getItem]
      cases hFound : database.findById tenantId documentId with
      | none => exact ⟨rfl, mirrored⟩
      | some row =>
          obtain ⟨hRow, hKey⟩ := select_mem hFound
          obtain ⟨rfl, rfl⟩ := Prod.mk.inj hKey
          have hOnly : ∀ other ∈ database.documents,
              decide (other.ownerKey = row.ownerKey) = true ↔ other = row := by
            intro other hOther
            rw [decide_eq_true_eq]
            exact ⟨mirrored.keyed.eq_of_key hOther hRow, congrArg _⟩
          exact ⟨rfl, mirrored.updateWhere hRow hOnly (sameIdentity_statusRow named error)
            (mirrored.filed.markStatus row.tenantId row.id named error) rfl rfl rfl⟩

/-- Derived rows are checked and replaced alike. -/
theorem Mirrored.replaceChunksAndEntities (mirrored : Mirrored uuid5 memory database)
    (tenantId : String) (documentId : UUID) {chunks : List Chunk} {entities : List Entity}
    (placed : Placed chunks entities) :
    (memory.replaceChunksAndEntities dimension tenantId documentId chunks entities).1 =
        (PostgresRepository.replaceChunksAndEntities uuid5 dimension tenantId documentId chunks
          entities database).1 ∧
      Mirrored uuid5
        (memory.replaceChunksAndEntities dimension tenantId documentId chunks entities).2
        (PostgresRepository.replaceChunksAndEntities uuid5 dimension tenantId documentId chunks
          entities database).2 := by
  rw [InMemoryRepository.replaceChunksAndEntities, PostgresRepository.replaceChunksAndEntities,
    InMemoryRepository.getDocument, mirrored.getItem]
  cases hFound : database.findById tenantId documentId with
  | none => exact ⟨rfl, mirrored⟩
  | some row =>
      obtain ⟨hRow, hKey⟩ := select_mem hFound
      obtain ⟨rfl, rfl⟩ := Prod.mk.inj hKey
      simp only [Option.map_some]
      cases hValid : validateChunks dimension chunks with
      | error error => exact ⟨rfl, mirrored⟩
      | ok checked => exact ⟨rfl, mirrored.replaceChildren hRow placed⟩

/-- Output is answered with the time at which it was stored, if that is after the time of the
output that it replaces. -/
theorem takeOver_eq {record : StoredDocument} {row : DocumentRow} {now : Timestamp}
    (hContent : row.contentKey = record.contentKey) (hTime : record.processedAt = some now) :
    InMemoryRepository.takeOver record (nested database row) =
        { replacedRow record.toDocumentRow now row with
          chunks := record.chunks, entities := record.entities } ↔
      row.processedAt.getD row.createdAt < now := by
  obtain ⟨hTenant, hSha⟩ := Prod.mk.inj hContent
  simp only [InMemoryRepository.takeOver, replacedRow, nested, hTime, hTenant, hSha,
    Option.getD_some, StoredDocument.mk.injEq, DocumentRow.mk.injEq, true_and, and_true,
    Option.some.injEq]
  rw [max_eq_left_iff]
  exact Nat.succ_le_iff

/-- Output is checked alike, and kept on both sides. -/
theorem Mirrored.upsertDocument (mirrored : Mirrored uuid5 memory database)
    (tenantId filename : String) {document : Document} {fresh : Supply}
    (hFresh : ∀ row ∈ database.documents, row.id ≠ fresh.identifier)
    (hResolved : fresh.now < lastResolved)
    (placed : Placed document.chunks document.entities) :
    let later := accepted dimension tenantId filename document fresh = true →
      ∀ previous ∈ memory.findBySha256 tenantId document.sha256,
        previous.processedAt.getD previous.createdAt < fresh.now
    ((memory.upsertDocument dimension tenantId filename document fresh).1 =
        (PostgresRepository.upsertDocument uuid5 dimension tenantId filename document fresh
          database).1 ↔ later) ∧
      (later → Mirrored uuid5
        (memory.upsertDocument dimension tenantId filename document fresh).2
        (PostgresRepository.upsertDocument uuid5 dimension tenantId filename document fresh
          database).2) := by
  intro later
  simp only [later, accepted, InMemoryRepository.upsertDocument, PostgresRepository.upsertDocument]
  cases hPrepared : prepareDocument tenantId filename document fresh.identifier fresh.now with
  | error error =>
      refine ⟨iff_of_true rfl fun hAccepted => ?_, fun _ => mirrored⟩
      cases hAccepted
  | ok record =>
      cases hValid : validateChunks dimension record.chunks with
      | error error =>
          simp only [hValid]
          refine ⟨iff_of_true trivial fun hAccepted => ?_, fun _ => mirrored⟩
          cases hAccepted
      | ok checked =>
          have hRecord := prepareDocument_ok hPrepared
          have hFind : database.findByContent record.tenantId record.sha256 =
              database.findByContent tenantId document.sha256 := by
            rw [hRecord]
          have output := @Mirrored.output uuid5 memory database mirrored record fresh.now
            (by rw [hRecord]; exact hFresh) (by rw [hRecord]; exact hResolved)
            (by rw [hRecord]; exact placed)
          simp only [mirrored.findBySha256, Operation.outputRow, hFind, hValid] at output ⊢
          cases hFound : database.findByContent tenantId document.sha256 with
          | none =>
              have hInserted : ({ insertedRow record.toDocumentRow fresh.now with
                  chunks := record.chunks, entities := record.entities } : StoredDocument) =
                  record := by
                rw [hRecord]
                rfl
              have hKey : (insertedRow record.toDocumentRow fresh.now).ownerKey =
                  (tenantId, record.id) := by
                rw [hRecord]
                rfl
              simp only [hFound, hInserted, hKey] at output ⊢
              exact ⟨iff_of_true rfl fun _ _ h => absurd h (Option.not_mem_none _),
                fun _ => output⟩
          | some row =>
              have hContent : row.contentKey = record.contentKey := by
                rw [hRecord]
                exact (select_mem hFound).2
              have hTenant : row.tenantId = tenantId := congrArg Prod.fst (select_mem hFound).2
              have hTaken := @takeOver_eq database record row fresh.now hContent (by rw [hRecord])
              have hLater : (True → ∀ previous ∈ some (nested database row),
                    previous.processedAt.getD previous.createdAt < fresh.now) ↔
                  row.processedAt.getD row.createdAt < fresh.now := by
                simp only [true_imp_iff, Option.mem_some_iff, forall_eq']
                rfl
              simp only [hFound, Option.map_some, Except.toBool, Except.ok.injEq] at output ⊢
              rw [hLater, hTaken]
              refine ⟨Iff.rfl, fun h => ?_⟩
              rw [hTaken.mpr h, ← hTenant]
              exact output

/-- Every call is answered alike exactly under its condition, and then both sides still keep the
same documents. -/
theorem Mirrored.step (mirrored : Mirrored uuid5 memory database) {call : RepositoryCall}
    (hCall : Orderly memory call) :
    ((InMemoryRepository.repository dimension memory call).1 =
        (PostgresRepository.typedRepository uuid5 dimension database call).1 ↔
      AnsweredAlike dimension memory call) ∧
    (AnsweredAlike dimension memory call →
      Mirrored uuid5 (InMemoryRepository.repository dimension memory call).2
        (PostgresRepository.typedRepository uuid5 dimension database call).2) := by
  obtain ⟨hNew, hResolved, hPlaced⟩ := hCall
  have hFresh : ∀ row ∈ database.documents, row.id ≠ call.fresh.identifier := by
    intro row hRow
    apply hNew (row.ownerKey, nested database row)
    rw [mirrored.documents]
    exact List.mem_map_of_mem hRow
  rw [PostgresRepository.typedRepository, ← mirrored.columnsHold, AnsweredAlike]
  split_ifs with hFits
  · rw [and_iff_right hFits]
    obtain ⟨request, fresh⟩ := call
    cases request with
    | registerUpload tenantId filename sha256 mediaType sizeBytes objectKey =>
        obtain ⟨hAnswer, hAfter⟩ := @Mirrored.registerUpload _ _ _ mirrored
          (uploadRecord tenantId filename sha256 mediaType sizeBytes objectKey fresh) fresh hFresh
          hResolved
        exact ⟨hAnswer, fun h => hAfter h.1⟩
    | findBySha256 tenantId sha256 =>
        refine ⟨?_, fun _ => mirrored⟩
        show Except.ok (memory.findBySha256 tenantId sha256) =
          .ok ((database.findByContent tenantId sha256).map storedRow) ↔
            ∀ found ∈ memory.findBySha256 tenantId sha256, Bare found
        rw [mirrored.findBySha256, ← map_nested_eq, Except.ok.injEq]
    | listDocuments tenantId limit offset =>
        refine ⟨?_, fun _ => mirrored⟩
        show memory.listDocuments tenantId limit offset =
          listDocuments tenantId limit offset database ↔ (1 ≤ limit ∧ limit ≤ 100 ∧ 0 ≤ offset →
            ∀ document ∈ memory.page tenantId limit offset, Bare document)
        by_cases hBounds : 1 ≤ limit ∧ limit ≤ 100 ∧ 0 ≤ offset
        · rw [listDocuments_ok hBounds, InMemoryRepository.listDocuments, if_neg (by omega),
            mirrored.page, ← map_nested_eq_list, Except.ok.injEq, imp_iff_right hBounds]
        · rw [listDocuments, InMemoryRepository.listDocuments, if_pos (by omega),
            if_pos (by omega)]
          exact iff_of_true rfl fun h => absurd h hBounds
    | markStatus tenantId documentId status error =>
        obtain ⟨hAnswer, hAfter⟩ := mirrored.markStatus tenantId documentId status error
        exact ⟨iff_of_true hAnswer trivial, fun _ => hAfter⟩
    | upsertDocument tenantId filename document =>
        exact mirrored.upsertDocument tenantId filename hFresh hResolved hPlaced
    | replaceChunksAndEntities tenantId documentId chunks entities =>
        obtain ⟨hAnswer, hAfter⟩ := mirrored.replaceChunksAndEntities tenantId documentId hPlaced
        exact ⟨iff_of_true hAnswer trivial, fun _ => hAfter⟩
    | getDocument tenantId documentId =>
        refine ⟨iff_of_true ?_ trivial, fun _ => mirrored⟩
        exact congrArg Except.ok (mirrored.getDocument tenantId documentId)
  · exact ⟨iff_of_false (answer_ne_other memory call _) fun h => hFits h.1,
      fun h => absurd h.1 hFits⟩

end Mirrored

instance (chunks : List Chunk) (entities : List Entity) : Decidable (Placed chunks entities) :=
  decidable_of_iff (chunks.Pairwise (chunkPlace · ≤ chunkPlace ·) ∧
    entities.Pairwise (entityPlace · < entityPlace ·)) ⟨fun h => ⟨h.1, h.2⟩, fun h => ⟨h.1, h.2⟩⟩

instance (request : RepositoryRequest) : Decidable (placedRequest request) :=
  match request with
  | .upsertDocument _ _ document =>
      inferInstanceAs (Decidable (Placed document.chunks document.entities))
  | .replaceChunksAndEntities _ _ chunks entities =>
      inferInstanceAs (Decidable (Placed chunks entities))
  | .registerUpload _ _ _ _ _ _ | .findBySha256 _ _ | .listDocuments _ _ _ | .markStatus _ _ _ _
  | .getDocument _ _ => isTrue trivial

instance (memory : InMemoryRepository) (call : RepositoryCall) : Decidable (Orderly memory call) :=
  inferInstanceAs (Decidable
    ((∀ item ∈ memory.documents, item.1.2 ≠ call.fresh.identifier) ∧
      call.fresh.now < lastResolved ∧ placedRequest call.request))

instance (document : StoredDocument) : Decidable (Bare document) :=
  inferInstanceAs (Decidable (document.chunks = [] ∧ document.entities = []))

instance (dimension : Nat) (memory : InMemoryRepository) (request : RepositoryRequest)
    (fresh : Supply) : Decidable (conditionFor dimension memory request fresh) :=
  match request with
  | .registerUpload tenantId _ sha256 _ _ _ =>
      inferInstanceAs (Decidable
        (tenantId ≠ "" ∧ ∀ previous ∈ memory.findBySha256 tenantId sha256, Bare previous))
  | .findBySha256 tenantId sha256 =>
      inferInstanceAs (Decidable (∀ found ∈ memory.findBySha256 tenantId sha256, Bare found))
  | .listDocuments tenantId limit offset =>
      inferInstanceAs (Decidable (1 ≤ limit ∧ limit ≤ 100 ∧ 0 ≤ offset →
        ∀ document ∈ memory.page tenantId limit offset, Bare document))
  | .upsertDocument tenantId filename document =>
      inferInstanceAs (Decidable (accepted dimension tenantId filename document fresh = true →
        ∀ previous ∈ memory.findBySha256 tenantId document.sha256,
          previous.processedAt.getD previous.createdAt < fresh.now))
  | .markStatus _ _ _ _ | .replaceChunksAndEntities _ _ _ _ | .getDocument _ _ => isTrue trivial

instance (dimension : Nat) (memory : InMemoryRepository) (call : RepositoryCall) :
    Decidable (AnsweredAlike dimension memory call) :=
  inferInstanceAs (Decidable (columnsHold dimension
      (fun tenantId documentId => (memory.getDocument tenantId documentId).isSome) call = true ∧
    conditionFor dimension memory call.request call.fresh))

end DocInsight.Testing
