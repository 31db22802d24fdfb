import DocInsight.Worker.Processing
import DocInsight.Worker.Repository
import Mathlib.Algebra.Order.Ring.Unbundled.Rat

/-! Reads bound to one snapshot. What the vector extension and the full-text search make of
a row is given. -/
namespace DocInsight.Worker

open DocInsight.Contracts DocInsight.Python Table

inductive FilterLanguage where
  | en
  | hr
  deriving DecidableEq, Repr

def FilterLanguage.code : FilterLanguage → String
  | en => "en"
  | hr => "hr"

structure QueryFilter where
  documentIds : Option (List UUID) := none
  language : Option FilterLanguage := none
  deriving DecidableEq, Repr

def QueryFilter.admits (filter : QueryFilter) (row : ChunkRow) : Bool :=
  filter.documentIds.all (fun ids => ids.contains row.documentId) &&
    filter.language.all fun language => row.chunk.language = language.code

/-- The cosine distance of two vectors; whether a text matches a query, and its rank. -/
structure SearchFunctions where
  cosineDistance : List Scalar → List Scalar → ℚ
  textMatches : Text → Text → Bool
  textRank : Text → Text → ℚ

/-- Metadata only, in stable newest-first order. -/
def listDocuments (tenantId : String) (limit offset : Int) (database : Database) :
    Except Failure (List StoredDocument) :=
  if ¬ (1 ≤ limit ∧ limit ≤ 100) ∨ offset < 0 then .error (.value "ValueError")
  else
    let rows := database.documents.filter fun row => row.tenantId = tenantId
    let sorted := orderBy (fun row => toLex (OrderDual.toDual row.createdAt, row.id.bits.toNat)) rows
    .ok (((sorted.drop offset.toNat).take limit.toNat).map fun row => { row with })

namespace PostgresQueryReader

/-- Apply tenant and optional filters, then stable tie-breaking before the limit. -/
def read (tenantId : String) (k : Int) (filter : Option QueryFilter) (condition : ChunkRow → Bool)
    (order score : ChunkRow → ℚ) (database : Database) : Except Failure (List SearchHit) :=
  if k < 1 then .error (.value "ValueError")
  else
    let rows := database.chunks.filter fun row =>
      condition row && row.tenantId = tenantId && filter.all fun filter => filter.admits row
    let sorted := orderBy (fun row =>
      toLex (order row, toLex (row.documentId.bits.toNat, row.chunk.ord))) rows
    .ok ((sorted.take k.toNat).map fun row =>
      { documentId := row.documentId, chunk := row.chunk, score := score row })

/-- Read only names for scope resolution. -/
def documentNames (tenantId : String) (database : Database) : List (UUID × String) :=
  (database.documents.filter fun row => row.tenantId = tenantId).map fun row =>
    (row.id, row.filename)

/-- Cosine-ranked passages after validating the query vector shape. -/
def nearestChunks (functions : SearchFunctions) (dimension : Nat) (tenantId : String)
    (vector : List Scalar) (k : Int) (filter : Option QueryFilter) (database : Database) :
    Except Failure (List SearchHit) :=
  match validateVector vector dimension with
  | .error _ => .error (.value "ValueError")
  | .ok _ =>
      let distance (row : ChunkRow) :=
        functions.cosineDistance (row.chunk.embedding.getD []) vector
      read tenantId k filter (fun _ => true) distance (fun row => 1 - distance row) database

/-- Lexical matches, the highest rank first. -/
def searchText (functions : SearchFunctions) (tenantId : String) (query : Text) (k : Int)
    (filter : Option QueryFilter) (database : Database) : Except Failure (List SearchHit) :=
  let rank (row : ChunkRow) := functions.textRank row.chunk.text query
  read tenantId k filter (fun row => functions.textMatches row.chunk.text query)
    (fun row => -rank row) rank database

end PostgresQueryReader

end DocInsight.Worker
