import DocInsight.Contracts.Storage

/-! The string-valued wire contract of an uploaded document: what the relay writes to
the stream, and what a worker accepts from it. -/
namespace DocInsight.Contracts

/-- The fields of a stream entry, in order. -/
abbrev Fields := List (String × String)

/-- `dict(fields, key=value)`. -/
def setField (fields : Fields) (key value : String) : Fields :=
  if fields.any fun field => field.1 = key then
    fields.map fun field => if field.1 = key then (key, value) else field
  else fields ++ [(key, value)]

/-- How identifiers, times and sizes are written to strings and read from them. -/
structure Codec where
  writeUUID : UUID → String
  readUUID : String → Option UUID
  writeTime : Timestamp → String
  readTime : String → Option Timestamp
  writeSize : Nat → String
  readSize : String → Option Nat

/-- What is written is read back. -/
structure Codec.Lawful (codec : Codec) : Prop where
  uuid : ∀ id, codec.readUUID (codec.writeUUID id) = some id
  time : ∀ time, codec.readTime (codec.writeTime time) = some time
  size : ∀ size, codec.readSize (codec.writeSize size) = some size

def MediaType.value : MediaType → String
  | .pdf => "application/pdf"
  | .png => "image/png"
  | .jpeg => "image/jpeg"
  | .tiff => "image/tiff"

def MediaType.parse (value : String) : Option MediaType :=
  [MediaType.pdf, .png, .jpeg, .tiff].find? fun kind => kind.value = value

@[simp] theorem MediaType.parse_value (kind : MediaType) : parse kind.value = some kind := by
  cases kind <;> decide

/-- `^[A-Za-z0-9._-]{1,64}$` -/
def validTenant (value : String) : Bool :=
  0 < value.length && value.length ≤ 64 && value.toList.all fun character =>
    character.isAlphanum || character = '.' || character = '_' || character = '-'

/-- `^[0-9a-f]{64}$` -/
def validDigest (value : String) : Bool :=
  value.length = 64 && value.toList.all fun character =>
    character.isDigit || ('a' ≤ character && character ≤ 'f')

/-- The event of an upload, as it is kept in the outbox and written to the stream. -/
structure DocumentUploaded where
  eventId : UUID
  tenantId : String
  documentId : UUID
  sha256 : String
  objectKey : String
  mediaType : MediaType
  sizeBytes : Nat
  occurredAt : Timestamp
  traceparent : Option String := none
  valid_tenant : validTenant tenantId = true
  valid_digest : validDigest sha256 = true
  deriving DecidableEq, Repr

def eventType : String := "document.uploaded"

/-- A value of a JSON payload. -/
inductive PayloadValue where
  | text (value : String)
  | number (value : Nat)
  deriving DecidableEq, Repr

/-- A JSON object, as the outbox keeps it. -/
abbrev Payload := List (String × PayloadValue)

/-- `str(value)` -/
def PayloadValue.toText (codec : Codec) : PayloadValue → String
  | text value => value
  | number value => codec.writeSize value

def PayloadValue.asText : PayloadValue → Option String
  | text value => some value
  | number _ => none

/-- A size is read from a number or from the text of one. -/
def PayloadValue.asSize (codec : Codec) : PayloadValue → Option Nat
  | text value => codec.readSize value
  | number value => some value

/-- `model_dump(mode="json", exclude_none=True)` -/
def DocumentUploaded.modelDump (codec : Codec) (event : DocumentUploaded) : Payload :=
  [("event_id", .text (codec.writeUUID event.eventId)), ("type", .text eventType),
   ("tenant_id", .text event.tenantId),
   ("document_id", .text (codec.writeUUID event.documentId)), ("sha256", .text event.sha256),
   ("object_key", .text event.objectKey), ("media_type", .text event.mediaType.value),
   ("size_bytes", .number event.sizeBytes),
   ("occurred_at", .text (codec.writeTime event.occurredAt))] ++
  match event.traceparent with
  | some parent => [("traceparent", .text parent)]
  | none => []

/-- Every value is written as a string; a missing trace parent is left out. -/
def DocumentUploaded.streamFields (codec : Codec) (event : DocumentUploaded) : Fields :=
  (event.modelDump codec).map fun field => (field.1, field.2.toText codec)

/-- Read an event from a payload; a missing identifier, type or time is filled in. -/
def DocumentUploaded.modelValidate (codec : Codec) (newId : UUID) (now : Timestamp)
    (payload : Payload) : Option DocumentUploaded := do
  let eventId ← match payload.lookup "event_id" with
    | some value => value.asText.bind codec.readUUID
    | none => some newId
  let kind ← match payload.lookup "type" with
    | some value => value.asText
    | none => some eventType
  let tenantId ← (← payload.lookup "tenant_id") |>.asText
  let documentId ← (← (← payload.lookup "document_id") |>.asText) |> codec.readUUID
  let sha256 ← (← payload.lookup "sha256") |>.asText
  let objectKey ← (← payload.lookup "object_key") |>.asText
  let mediaType ← (← (← payload.lookup "media_type") |>.asText) |> MediaType.parse
  let sizeBytes ← (← payload.lookup "size_bytes") |>.asSize codec
  let occurredAt ← match payload.lookup "occurred_at" with
    | some value => value.asText.bind codec.readTime
    | none => some now
  let traceparent ← match payload.lookup "traceparent" with
    | some value => value.asText.map some
    | none => some none
  if hValid : kind = eventType ∧ validTenant tenantId = true ∧ validDigest sha256 = true then
    some { eventId, tenantId, documentId, sha256, objectKey, mediaType, sizeBytes, occurredAt,
           traceparent, valid_tenant := hValid.2.1, valid_digest := hValid.2.2 }
  else none

/-- The relay reads back the event that a registration put in the outbox. -/
theorem DocumentUploaded.modelValidate_modelDump {codec : Codec} (lawful : codec.Lawful)
    (newId : UUID) (now : Timestamp) (event : DocumentUploaded) :
    modelValidate codec newId now (event.modelDump codec) = some event := by
  obtain ⟨eventId, tenantId, documentId, sha256, objectKey, mediaType, sizeBytes, occurredAt,
    traceparent, hTenant, hDigest⟩ := event
  cases traceparent with
  | none => simp [modelValidate, modelDump, List.lookup_cons, lawful.uuid, lawful.time, hTenant,
      hDigest, PayloadValue.asText, PayloadValue.asSize]
  | some parent => simp [modelValidate, modelDump, List.lookup_cons, lawful.uuid, lawful.time, hTenant,
      hDigest, PayloadValue.asText, PayloadValue.asSize]

/-- The object key of a tenant's content. -/
def contentObjectKey (tenantId sha256 : String) : String := tenantId ++ "/" ++ sha256

/-- A key names one tenant and one digest. -/
theorem contentObjectKey_inj {tenantId otherTenant sha256 otherDigest : String}
    (hDigest : validDigest sha256 = true) (hOther : validDigest otherDigest = true)
    (h : contentObjectKey tenantId sha256 = contentObjectKey otherTenant otherDigest) :
    tenantId = otherTenant ∧ sha256 = otherDigest := by
  have hLength {digest : String} (hValid : validDigest digest = true) :
      digest.toList.length = 64 := by
    simp only [validDigest, Bool.and_eq_true, decide_eq_true_eq] at hValid
    rw [String.length_toList]
    exact hValid.1
  have hChars := congrArg String.toList h
  simp only [contentObjectKey, String.toList_append] at hChars
  obtain ⟨hKey, hSame⟩ := List.append_inj' hChars ((hLength hDigest).trans (hLength hOther).symm)
  exact ⟨String.toList_injective (List.append_inj_left' hKey rfl), String.toList_injective hSame⟩

/-- An event that a worker accepts: its key is the one of its tenant and digest. -/
structure WorkerEvent extends DocumentUploaded where
  valid_key : objectKey = contentObjectKey tenantId sha256
  deriving DecidableEq, Repr

/-- Read an event from the fields of an entry; nothing missing is filled in. -/
def WorkerEvent.modelValidate (codec : Codec) (fields : Fields) : Option WorkerEvent := do
  let eventId ← (← fields.lookup "event_id") |> codec.readUUID
  let kind ← fields.lookup "type"
  let tenantId ← fields.lookup "tenant_id"
  let documentId ← (← fields.lookup "document_id") |> codec.readUUID
  let sha256 ← fields.lookup "sha256"
  let objectKey ← fields.lookup "object_key"
  let mediaType ← (← fields.lookup "media_type") |> MediaType.parse
  let sizeBytes ← (← fields.lookup "size_bytes") |> codec.readSize
  let occurredAt ← (← fields.lookup "occurred_at") |> codec.readTime
  if hValid : kind = eventType ∧ validTenant tenantId = true ∧ validDigest sha256 = true ∧
      objectKey = contentObjectKey tenantId sha256 then
    some { eventId, tenantId, documentId, sha256, objectKey, mediaType, sizeBytes, occurredAt,
           traceparent := fields.lookup "traceparent",
           valid_tenant := hValid.2.1, valid_digest := hValid.2.2.1,
           valid_key := hValid.2.2.2 }
  else none

/-- A worker reads back the event of an upload that the relay wrote. -/
theorem WorkerEvent.modelValidate_streamFields {codec : Codec} (lawful : codec.Lawful)
    (event : WorkerEvent) :
    modelValidate codec (event.toDocumentUploaded.streamFields codec) = some event := by
  obtain ⟨⟨eventId, tenantId, documentId, sha256, objectKey, mediaType, sizeBytes, occurredAt,
    traceparent, hTenant, hDigest⟩, hKey⟩ := event
  simp only at hKey
  cases traceparent with
  | none => simp [modelValidate, DocumentUploaded.streamFields, DocumentUploaded.modelDump,
      PayloadValue.toText, List.lookup_cons, lawful.uuid, lawful.time, lawful.size, hTenant,
      hDigest, hKey]
  | some parent => simp [modelValidate, DocumentUploaded.streamFields, DocumentUploaded.modelDump,
      PayloadValue.toText, List.lookup_cons, lawful.uuid, lawful.time, lawful.size, hTenant,
      hDigest, hKey]

/-- An entry as it is handed to a worker. -/
structure StreamMessage where
  id : Nat
  fields : Fields
  deriving DecidableEq, Repr

end DocInsight.Contracts
