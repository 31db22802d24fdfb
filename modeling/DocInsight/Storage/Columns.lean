import DocInsight.Storage.Repository

/-! What the columns of the tables can hold. Any other value raises at the statement that it
is sent with, and the transaction is rolled back. -/
namespace DocInsight.Storage

open DocInsight.Contracts DocInsight.Python DocInsight.Worker Simulation Table

/-- A text column holds code points that can be encoded, but for the null character. -/
def encodableColumn (value : Text) : Bool :=
  value.all fun character => character.val ≠ 0 && !isSurrogate character

/-- A column of signed integers of so many bits. -/
def integerColumn (bits : Nat) (value : Int) : Bool :=
  -2 ^ (bits - 1) ≤ value && value < 2 ^ (bits - 1)

def chunkFits (chunk : Chunk) : Bool :=
  encodableColumn chunk.text && textColumn chunk.language &&
    [(chunk.page : Int), chunk.ord, chunk.charStart, chunk.charEnd, chunk.tokenCount].all
      (integerColumn 32)

def entityFits (entity : Entity) : Bool :=
  encodableColumn entity.text && textColumn entity.label &&
    [(entity.page : Int), entity.charStart, entity.charEnd, entity.count].all (integerColumn 32)

def documentFits (row : DocumentRow) : Bool :=
  [row.tenantId, row.filename, row.sha256].all textColumn &&
    [row.language, row.pipelineVersion, row.embedModel, row.objectKey, row.error].all
      (Option.all textColumn) &&
    row.pageCount.all (fun count => integerColumn 32 count) &&
    row.sizeBytes.all fun size => integerColumn 64 size

/-- Derived rows are written only after their vectors were found valid. -/
def childrenFit (dimension : Nat) (chunks : List Chunk) (entities : List Entity) : Bool :=
  !(validateChunks dimension chunks).toBool || (chunks.all chunkFits && entities.all entityFits)

/-- Every statement that a call comes to sends values that its columns hold. -/
def columnsHold (dimension : Nat) (known : String → UUID → Bool) (call : RepositoryCall) : Bool :=
  match call.request with
  | .registerUpload tenantId filename sha256 mediaType sizeBytes objectKey =>
      documentFits (uploadRecord tenantId filename sha256 mediaType sizeBytes objectKey call.fresh)
  | .findBySha256 tenantId sha256 => textColumn tenantId && textColumn sha256
  | .listDocuments tenantId limit offset =>
      !(1 ≤ limit ∧ limit ≤ 100) || offset < 0 ||
        (textColumn tenantId && integerColumn 64 offset)
  | .markStatus tenantId _ status error =>
      match statusNamed status with
      | none => true
      | some status =>
          textColumn tenantId && (if status = .failed then error else none).all textColumn
  | .upsertDocument tenantId filename document =>
      match prepareDocument tenantId filename document call.fresh.identifier call.fresh.now with
      | .error _ => true
      | .ok record =>
          documentFits record.toDocumentRow && childrenFit dimension record.chunks record.entities
  | .replaceChunksAndEntities tenantId documentId chunks entities =>
      textColumn tenantId && (!known tenantId documentId || childrenFit dimension chunks entities)
  | .getDocument tenantId _ => textColumn tenantId

def columnError : Failure := .other "DataError"

/-- The repository over columns of their types. -/
def PostgresRepository.typedRepository (uuid5 : UUID → String → UUID) (dimension : Nat) :
    Component Database RepositoryCall RepositoryCall.Answer :=
  fun database call =>
    if columnsHold dimension (fun tenantId id => (database.findById tenantId id).isSome) call then
      repository uuid5 dimension database call
    else (.error columnError, database)

end DocInsight.Storage
