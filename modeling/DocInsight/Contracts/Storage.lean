import DocInsight.Contracts.Structure
import DocInsight.Contracts.Usage
import Mathlib.Algebra.Ring.Nat
import Mathlib.Data.List.Basic

/-! Tenant-scoped persistence: rows of documents with their derived output, and the
checks that precede every write of one. -/
namespace DocInsight.Contracts

open DocInsight.Python

/-- Microseconds since 1970 of an aware time. -/
abbrev Timestamp := Nat

inductive DocumentStatus where
  | uploaded
  | processing
  | processed
  | failed
  deriving DecidableEq, Repr

/-- A row of the table of documents. -/
structure DocumentRow where
  id : UUID
  tenantId : String
  filename : String
  sha256 : String
  mediaType : MediaType
  pageCount : Option Nat := none
  language : Option String := none
  status : DocumentStatus := .processed
  pipelineVersion : Option String := none
  embedModel : Option String := none
  sizeBytes : Option Nat := none
  objectKey : Option String := none
  error : Option String := none
  createdAt : Timestamp
  processedAt : Option Timestamp := none
  deriving DecidableEq, Repr

structure StoredDocument extends DocumentRow where
  chunks : List Chunk := []
  entities : List Entity := []
  deriving DecidableEq, Repr

/-- A chunk that a search found. -/
structure SearchHit where
  documentId : UUID
  chunk : Chunk
  score : ℚ
  deriving DecidableEq, Repr

/-- The unique key that concurrent writers of one content meet at. -/
def DocumentRow.contentKey (row : DocumentRow) : String × String := (row.tenantId, row.sha256)

/-- The key that status changes and reads go by. -/
def DocumentRow.ownerKey (row : DocumentRow) : String × UUID := (row.tenantId, row.id)

def Page.charCount (page : Page) : Nat := page.text.length

def ExtractedDocument.pageCount (document : ExtractedDocument) : Nat := document.pages.length

/-- Add a page's characters to the votes for its language. -/
def vote (votes : List (String × Nat)) (page : Page) : List (String × Nat) :=
  if votes.any fun entry => entry.1 = page.language then
    votes.map fun entry =>
      if entry.1 = page.language then (entry.1, entry.2 + page.charCount) else entry
  else votes ++ [(page.language, page.charCount)]

/-- The language of more than half of the characters. -/
def Document.language (document : Document) : String :=
  let votes := document.pages.foldl vote []
  let total := (votes.map Prod.snd).sum
  match votes.find? fun entry => total < 2 * entry.2 with
  | some (code, _) => code
  | none => "und"

def Scalar.isFinite : Scalar → Bool
  | .finite _ => true
  | .nonfinite => false

/-- Reject shapes and values that cannot participate in cosine retrieval. -/
def validateVector (vector : List Scalar) (dimension : Nat) : Except ValueError Unit :=
  if vector.length ≠ dimension || !vector.all Scalar.isFinite ||
      !vector.any fun value => value ≠ .finite 0 then
    .error ⟨"Expected a finite nonzero vector matching the dimension"⟩
  else .ok ()

def isBlank (value : String) : Bool := (strip (text value)).isEmpty

/-- Validate embedded output and build metadata before any repository writes. -/
def prepareDocument (tenantId filename : String) (document : Document) (id : UUID)
    (now : Timestamp) : Except ValueError StoredDocument := do
  if isBlank tenantId || document.embedModel.all String.isEmpty ||
      document.embedDimension.all (· = 0) then
    throw ⟨"A tenant and an embedded document are required"⟩
  document.chunks.forM fun chunk =>
    validateVector (chunk.embedding.getD []) (document.embedDimension.getD 0)
  return { id, tenantId, filename,
           sha256 := document.sha256, mediaType := document.mediaType,
           pageCount := document.pageCount, language := document.language,
           pipelineVersion := document.pipelineVersion, embedModel := document.embedModel,
           createdAt := now, processedAt := now,
           chunks := document.chunks, entities := document.entities }

/-- What is prepared has the content of the document and the metadata of its output. -/
theorem prepareDocument_ok {tenantId filename : String} {document : Document} {id : UUID}
    {now : Timestamp} {record : StoredDocument}
    (h : prepareDocument tenantId filename document id now = .ok record) :
    record = { id, tenantId, filename,
               sha256 := document.sha256, mediaType := document.mediaType,
               pageCount := document.pageCount, language := document.language,
               pipelineVersion := document.pipelineVersion, embedModel := document.embedModel,
               createdAt := now, processedAt := now,
               chunks := document.chunks, entities := document.entities } := by
  unfold prepareDocument at h
  split_ifs at h with hMissing
  · cases h
  · cases hVectors : document.chunks.forM fun chunk =>
        validateVector (chunk.embedding.getD []) (document.embedDimension.getD 0) with
    | error error =>
        rw [hVectors] at h
        cases h
    | ok checked =>
        rw [hVectors] at h
        cases h
        rfl

end DocInsight.Contracts
