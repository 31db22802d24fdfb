import DocInsight.Contracts.Streams
import DocInsight.Library.Interaction

/-! Validate ownership and object integrity before invoking expensive providers. The
repository, the object store, the stream and the pipeline are supplied as programs. -/
namespace DocInsight.Worker

open DocInsight.Contracts Interaction

abbrev Bytes := List UInt8

/-- An exception, as far as its handlers tell exceptions apart. -/
inductive Failure where
  | storageUnavailable
  | operational
  | interface
  | timeout
  | missingObject
  | lookup (name : String)
  | key
  | value (name : String)
  | client (code : String)
  | botoCore (name : String)
  | os (name : String)
  | redis (name : String)
  | other (name : String)
  deriving DecidableEq, Repr

namespace Failure

/-- `type(error).__name__`. -/
def className : Failure → String
  | storageUnavailable => "StorageUnavailable"
  | operational => "OperationalError"
  | interface => "InterfaceError"
  | timeout => "TimeoutError"
  | missingObject => "MissingObject"
  | lookup name | value name | botoCore name | os name | redis name | other name => name
  | key => "KeyError"
  | client _ => "ClientError"

/-- The errors after which an entry stays pending. -/
def isTransient : Failure → Bool
  | storageUnavailable | operational | interface | timeout => true
  | _ => false

/-- `LookupError` or `ValueError`. -/
def isReference : Failure → Bool
  | lookup _ | key | value _ => true
  | _ => false

def isRedis : Failure → Bool
  | redis _ => true
  | _ => false

end Failure

/-- What the providers make of an original: pages with their derived output. -/
structure Output where
  pages : List Page
  chunks : List Chunk
  entities : List Entity
  embedModel : Option String
  embedDimension : Option Nat

/-- What a process asks of anything but the stream and the repository. -/
inductive Outside where
  | stopping
  | clock
  | wait
  | makeDirectory
  | removeDirectory
  | openObject (key : String)
  | readObject
  | compute (data : Bytes)
  | traceparent
  deriving DecidableEq, Repr

abbrev Outside.Answer : Outside → Type
  | stopping => Bool
  | clock => ℚ
  | wait => Unit
  | makeDirectory => Unit
  | removeDirectory => Unit
  | openObject _ => Unit
  | readObject => Bytes
  | compute _ => Output
  | traceparent => Option String

/-- The commands on the stream of documents and its group, and on the dead letters. -/
inductive StreamCommand where
  | createGroup
  | heartbeat
  | readGroup
  | autoClaim (cursor : String)
  | pending (id : Nat)
  | addDeadLetter (fields : Fields)
  | acknowledge (id : Nat)
  deriving DecidableEq, Repr

abbrev StreamCommand.Answer : StreamCommand → Type
  | createGroup => Unit
  | heartbeat => Unit
  | readGroup => List StreamMessage
  | autoClaim _ => String × List StreamMessage
  | pending _ => Nat
  | addDeadLetter _ => Unit
  | acknowledge _ => Unit

/-- What the worker is given: each operation as a program of calls, and the digest. -/
structure Backend (Call : Type) (Response : Call → Type) where
  outside : (query : Outside) → Program Call Response Failure query.Answer
  stream : (command : StreamCommand) → Program Call Response Failure command.Answer
  getDocument : String → UUID → Program Call Response Failure (Option StoredDocument)
  markStatus : String → UUID → DocumentStatus → Option String →
    Program Call Response Failure Unit
  upsertDocument : String → String → Document → Program Call Response Failure Unit
  sha256 : Bytes → String

/-- The kind of content by its signature. -/
def mediaType (data : Bytes) : Except Failure MediaType :=
  let signatures : List (Bytes × MediaType) :=
    [([0x25, 0x50, 0x44, 0x46, 0x2D], .pdf),
     ([0x89, 0x50, 0x4E, 0x47, 0x0D, 0x0A, 0x1A, 0x0A], .png), ([0xFF, 0xD8, 0xFF], .jpeg),
     ([0x49, 0x49, 0x2A, 0x00], .tiff), ([0x4D, 0x4D, 0x00, 0x2A], .tiff)]
  match signatures.find? fun entry => entry.1 == data.take entry.1.length with
  | some (_, kind) => .ok kind
  | none => .error (.value "UnsupportedMediaType")

/-- A signature is within the first bytes. -/
theorem mediaType_take (data : Bytes) : mediaType (data.take 8) = mediaType data := by
  simp [mediaType, List.take_take, List.find?_cons]

/-- Skip replay only when stored output uses the current pipeline version. -/
def completed (row : DocumentRow) : Bool :=
  row.status = .processed ∧ row.pipelineVersion = some pipelineVersion

/-- The metadata of an event is that of the document. -/
def Describes (event : WorkerEvent) (row : DocumentRow) : Prop :=
  row.sha256 = event.sha256 ∧ row.objectKey = some event.objectKey ∧
    row.mediaType = event.mediaType ∧ row.sizeBytes = some event.sizeBytes

instance (event : WorkerEvent) (row : DocumentRow) : Decidable (Describes event row) := by
  unfold Describes
  infer_instance

section Processor
variable {Call : Type} {Response : Call → Type} (backend : Backend Call Response)

/-- What an error of the object store or of the temporary file becomes. -/
def downloadFailure : Failure → Failure
  | .client code =>
      if code = "404" ∨ code = "NoSuchKey" ∨ code = "NotFound" then .missingObject
      else .storageUnavailable
  | .botoCore _ | .os _ => .storageUnavailable
  | .key => .missingObject
  | error => error

/-- Read on until the object ends or has more bytes than the event says. Each read that
goes on takes at least one byte, so the reads are bounded by the size. -/
def readObject (event : WorkerEvent) : Nat → Bytes → Program Call Response Failure Bytes
  | 0, data => pure data
  | reads + 1, data => do
      let more ← backend.outside .readObject
      if more.isEmpty then pure data
      else if event.sizeBytes < (data ++ more).length then throw (.value "ValueError")
      else readObject event reads (data ++ more)

/-- Download bounded bytes and verify size, digest and media type before inference. -/
def download (event : WorkerEvent) : Program Call Response Failure Bytes := do
  let data ← Program.tryCatch
    (do backend.outside (.openObject event.objectKey)
        readObject backend event (event.sizeBytes + 1) [])
    fun error => throw (downloadFailure error)
  if data.length ≠ event.sizeBytes ∨ backend.sha256 data ≠ event.sha256 then
    throw (.value "ValueError")
  match mediaType (data.take 8) with
  | .error error => throw error
  | .ok kind => if kind ≠ event.mediaType then throw (.value "ValueError") else pure data

/-- Require event metadata to match the document owned by the event tenant. -/
def lookup (event : WorkerEvent) : Program Call Response Failure StoredDocument := do
  let found ← backend.getDocument event.tenantId event.documentId
  match found with
  | none => throw (.lookup "LookupError")
  | some document =>
      if Describes event document.toDocumentRow then pure document
      else throw (.value "ValueError")

/-- `filename or path.name`: an empty name gives way to the name of the path too. -/
def storedName (path : String) (filename : Option String) : String :=
  match filename with
  | some filename => if filename.isEmpty then path else filename
  | none => path

/-- Run all processing stages before atomically storing the complete result. -/
def index (path : String) (data : Bytes) (tenantId : String) (filename : Option String) :
    Program Call Response Failure Unit := do
  match mediaType data with
  | .error error => throw error
  | .ok kind => do
      let output ← backend.outside (.compute data)
      backend.upsertDocument tenantId (storedName path filename)
        { sha256 := backend.sha256 data, mediaType := kind, pages := output.pages,
          chunks := output.chunks, entities := output.entities,
          embedModel := output.embedModel, embedDimension := output.embedDimension }

/-- Index a temporary verified original and persist the final processing status. -/
def process (event : WorkerEvent) (document : StoredDocument) :
    Program Call Response Failure Unit := do
  backend.markStatus event.tenantId event.documentId .processing none
  backend.outside .makeDirectory
  Program.tryFinally
    (do let data ← download backend event
        index backend "original" data event.tenantId (some document.filename))
    (backend.outside .removeDirectory)
  backend.markStatus event.tenantId event.documentId .processed none

end Processor

end DocInsight.Worker
