import DocInsight.Storage.Transactions

/-! Bounded multipart parsing, and the order in which an upload is stored: reject before
object storage or database writes, and store the object before its document. -/
namespace DocInsight.Ingest

open DocInsight.Contracts DocInsight.Worker DocInsight.Storage Interaction

/-- An upload that is rejected with a status and its detail, or that is no multipart. -/
inductive UploadError where
  | http (status : Nat) (detail : String)
  | multipart
  deriving DecidableEq, Repr

def ascii (value : String) : Bytes := value.toList.map fun character => UInt8.ofNat character.toNat

/-- `bytes.lower` -/
def lowerByte (byte : UInt8) : UInt8 := if 65 ≤ byte ∧ byte ≤ 90 then byte + 32 else byte

/-- `data[start:stop]` -/
def slice (data : Bytes) (start stop : Nat) : Bytes := (data.take stop).drop start

/-- What the multipart parser calls while it reads. -/
inductive Callback where
  | partBegin
  | headerField (data : Bytes) (start stop : Nat)
  | headerValue (data : Bytes) (start stop : Nat)
  | headerEnd
  | headersFinished
  | partData (data : Bytes) (start stop : Nat)
  | finish
  deriving DecidableEq, Repr

/-- The multipart library: what a block or the end of the stream makes the parser call,
and whether it can go on from there. -/
structure MultipartLibrary where
  parseOptions : Bytes → Bytes × List (Bytes × Bytes)
  decode : Bytes → String
  Parser : Type
  new : Bytes → Parser
  write : Parser → Bytes → List Callback × Option Parser
  finalize : Parser → List Callback × Bool

/-- Data is announced by positions within the block it stands in. -/
def Callback.InRange : Callback → Prop
  | .partData data start stop => start ≤ stop ∧ stop ≤ data.length
  | _ => True

structure MultipartLibrary.Lawful (library : MultipartLibrary) : Prop where
  write : ∀ parser block, ∀ callback ∈ (library.write parser block).1, callback.InRange
  finalize : ∀ parser, ∀ callback ∈ (library.finalize parser).1, callback.InRange

/-- An upload while it is read. `target` is what was written to the spooled file, and
`digest` what the hash was fed with; `leading` are the bytes its signature is sniffed in. -/
structure UploadBody where
  limit : Nat
  target : Bytes := []
  size : Nat := 0
  digest : Bytes := []
  leading : Bytes := []
  filename : String := ""
  headers : List (Bytes × Bytes) := []
  headerCount : Nat := 0
  field : Bytes := []
  value : Bytes := []
  parts : Nat := 0
  complete : Bool := false
  deriving DecidableEq, Repr

namespace UploadBody

def partBegin (body : UploadBody) : Except UploadError UploadBody :=
  if body.parts + 1 ≠ 1 then .error (.http 400 "Expected one file field")
  else .ok { body with parts := body.parts + 1 }

def boundHeaders (body : UploadBody) : Except UploadError UploadBody :=
  if 8192 < body.field.length + body.value.length then
    .error (.http 400 "Multipart headers too large")
  else .ok body

/-- Accumulate header fragments; parser callbacks need not align with headers. -/
def headerField (data : Bytes) (start stop : Nat) (body : UploadBody) :
    Except UploadError UploadBody :=
  boundHeaders { body with field := body.field ++ (slice data start stop).map lowerByte }

def headerValue (data : Bytes) (start stop : Nat) (body : UploadBody) :
    Except UploadError UploadBody :=
  boundHeaders { body with value := body.value ++ slice data start stop }

def headerEnd (body : UploadBody) : Except UploadError UploadBody :=
  if 16 < body.headerCount + 1 then .error (.http 400 "Too many multipart headers")
  else
    .ok { body with
          headerCount := body.headerCount + 1
          headers := (body.field, body.value) :: body.headers.filter (·.1 ≠ body.field)
          field := [], value := [] }

def headersFinished (library : MultipartLibrary) (body : UploadBody) :
    Except UploadError UploadBody :=
  let disposition := (body.headers.lookup (ascii "content-disposition")).getD []
  let options := (library.parseOptions disposition).2
  match options.lookup (ascii "name") == some (ascii "file"),
      options.lookup (ascii "filename") with
  | true, some filename => .ok { body with filename := library.decode filename }
  | _, _ => .error (.http 400 "Expected a multipart file field")

/-- Hash and spool bounded file bytes without retaining the whole upload. -/
def partData (data : Bytes) (start stop : Nat) (body : UploadBody) :
    Except UploadError UploadBody :=
  let size := body.size + stop - start
  if body.limit < size then .error (.http 413 "Upload exceeds the configured limit")
  else
    let block := slice data start stop
    -- Signature sniffing needs only eight bytes, independent of filename/MIME headers.
    .ok { body with
          size
          leading := (body.leading ++ block.take 8).take 8
          digest := body.digest ++ block
          target := body.target ++ block }

def callback (library : MultipartLibrary) (body : UploadBody) :
    Callback → Except UploadError UploadBody
  | .partBegin => body.partBegin
  | .headerField data start stop => body.headerField data start stop
  | .headerValue data start stop => body.headerValue data start stop
  | .headerEnd => body.headerEnd
  | .headersFinished => body.headersFinished library
  | .partData data start stop => body.partData data start stop
  | .finish => .ok { body with complete := true }

/-- Feed the blocks of a request to the parser, up to the limit with some framing. -/
def readBlocks (library : MultipartLibrary) :
    List Bytes → Nat → library.Parser → UploadBody →
      Except UploadError (library.Parser × UploadBody)
  | [], _, parser, body => .ok (parser, body)
  | block :: rest, total, parser, body => do
      let total := total + block.length
      -- Framing gets a small allowance; part_data separately caps actual file bytes.
      if body.limit + 16384 < total then throw (.http 413 "Upload exceeds the configured limit")
      let (callbacks, next) := library.write parser block
      let body ← callbacks.foldlM (callback library) body
      match next with
      | none => throw .multipart
      | some parser => readBlocks library rest total parser body

/-- Parse exactly one complete file part. -/
def read (library : MultipartLibrary) (limit : Nat) (contentType : Bytes) (blocks : List Bytes) :
    Except UploadError UploadBody := do
  let (kind, options) := library.parseOptions contentType
  let boundary := (options.lookup (ascii "boundary")).getD []
  if kind ≠ ascii "multipart/form-data" ∨ boundary.length < 1 ∨ 200 < boundary.length then
    throw (.http 400 "Expected multipart/form-data with a boundary")
  let (parser, body) ← readBlocks library blocks 0 (library.new boundary) { limit }
  let (callbacks, finished) := library.finalize parser
  let body ← callbacks.foldlM (callback library) body
  if !finished then throw .multipart
  -- Network EOF alone does not prove that the closing multipart boundary arrived.
  if !body.complete || body.parts ≠ 1 then throw (.http 400 "Incomplete multipart upload")
  return body

/-- What a callback does to the bytes: file data is added, and the others leave them. -/
theorem callback_cases {library : MultipartLibrary} {body next : UploadBody} {call : Callback}
    (h : body.callback library call = .ok next) :
    (∃ data start stop, call = .partData data start stop ∧
      body.partData data start stop = .ok next) ∨
    (next.target = body.target ∧ next.digest = body.digest ∧ next.leading = body.leading ∧
      next.size = body.size) := by
  cases call with
  | partData data start stop => exact Or.inl ⟨data, start, stop, rfl, h⟩
  | finish =>
      cases h
      exact Or.inr ⟨rfl, rfl, rfl, rfl⟩
  | partBegin =>
      simp only [callback, partBegin] at h
      split_ifs at h
      cases h
      exact Or.inr ⟨rfl, rfl, rfl, rfl⟩
  | headerField data start stop =>
      simp only [callback, headerField, boundHeaders] at h
      split_ifs at h
      cases h
      exact Or.inr ⟨rfl, rfl, rfl, rfl⟩
  | headerValue data start stop =>
      simp only [callback, headerValue, boundHeaders] at h
      split_ifs at h
      cases h
      exact Or.inr ⟨rfl, rfl, rfl, rfl⟩
  | headerEnd =>
      simp only [callback, headerEnd] at h
      split_ifs at h
      cases h
      exact Or.inr ⟨rfl, rfl, rfl, rfl⟩
  | headersFinished =>
      simp only [callback, headersFinished] at h
      split at h
      · cases h
        exact Or.inr ⟨rfl, rfl, rfl, rfl⟩
      · cases h

/-- A computation that succeeds goes on from the result of its first step. -/
theorem ok_of_bind {Error First Second : Type} {first : Except Error First}
    {rest : First → Except Error Second} {result : Second} (h : (first >>= rest) = .ok result) :
    ∃ middle, first = .ok middle ∧ rest middle = .ok result := by
  cases first with
  | error error => cases h
  | ok middle => exact ⟨middle, rfl, h⟩

section Invariant
variable {library : MultipartLibrary} {holds : UploadBody → Prop} {scope : Callback → Prop}
  (hCall : ∀ body call next, scope call → holds body → body.callback library call = .ok next →
    holds next)

include hCall

theorem callbacks_invariant {calls : List Callback} {body next : UploadBody}
    (hScope : ∀ call ∈ calls, scope call) (hBody : holds body)
    (h : calls.foldlM (callback library) body = .ok next) : holds next := by
  induction calls generalizing body with
  | nil =>
      cases h
      exact hBody
  | cons call rest ih =>
      rw [List.foldlM_cons] at h
      obtain ⟨middle, hFirst, hRest⟩ := ok_of_bind h
      exact ih (fun other hOther => hScope other (List.mem_cons_of_mem _ hOther))
        (hCall body call middle (hScope call (List.mem_cons_self ..)) hBody hFirst) hRest

theorem readBlocks_invariant
    (hWrite : ∀ parser block, ∀ call ∈ (library.write parser block).1, scope call)
    {blocks : List Bytes} {total : Nat} {parser last : library.Parser} {body next : UploadBody}
    (hBody : holds body) (h : readBlocks library blocks total parser body = .ok (last, next)) :
    holds next := by
  induction blocks generalizing total parser body with
  | nil =>
      cases h
      exact hBody
  | cons block rest ih =>
      simp only [readBlocks] at h
      split_ifs at h
      · cases h
      · obtain ⟨middle, hCalls, hNext⟩ := ok_of_bind h
        have hMiddle := callbacks_invariant hCall (hWrite parser block) hBody hCalls
        cases hParser : (library.write parser block).2 with
        | none =>
            rw [hParser] at hNext
            cases hNext
        | some parser =>
            rw [hParser] at hNext
            exact ih hMiddle hNext

/-- What every callback keeps holds of an upload that was read as a whole. -/
theorem read_invariant
    (hWrite : ∀ parser block, ∀ call ∈ (library.write parser block).1, scope call)
    (hFinalize : ∀ parser, ∀ call ∈ (library.finalize parser).1, scope call)
    {limit : Nat} (hNew : holds { limit }) {contentType : Bytes} {blocks : List Bytes}
    {body : UploadBody} (h : read library limit contentType blocks = .ok body) : holds body := by
  simp only [read] at h
  split_ifs at h
  · cases h
  · obtain ⟨⟨parser, middle⟩, hBlocks, hRest⟩ := ok_of_bind h
    have hMiddle := readBlocks_invariant hCall hWrite hNew hBlocks
    obtain ⟨ended, hCalls, hEnd⟩ := ok_of_bind hRest
    have hEnded := callbacks_invariant hCall (hFinalize parser) hMiddle hCalls
    split_ifs at hEnd
    all_goals
      cases hEnd
    exact hEnded

end Invariant

/-- What was hashed is what was spooled, and what was sniffed is its beginning. -/
structure Accurate (body : UploadBody) : Prop where
  digest : body.digest = body.target
  leading : body.leading = body.target.take 8

/-- The first bytes of what was read so far are enough to know those of the whole. -/
theorem take_append_take (first second : Bytes) :
    (first.take 8 ++ second.take 8).take 8 = (first ++ second).take 8 := by
  rw [List.take_append, List.take_append, List.take_take, List.take_take, Nat.min_self,
    List.length_take]
  congr 1
  rw [Nat.min_def]
  congr 1
  split_ifs <;> omega

theorem Accurate.callback {library : MultipartLibrary} {body next : UploadBody}
    (accurate : Accurate body) {call : Callback} (h : body.callback library call = .ok next) :
    Accurate next := by
  rcases callback_cases h with ⟨data, start, stop, _, hData⟩ | ⟨hTarget, hDigest, hLeading, _⟩
  · simp only [partData] at hData
    split_ifs at hData
    cases hData
    constructor
    · simp only [accurate.digest]
    · simp only [accurate.leading, take_append_take]
  · constructor
    · rw [hDigest, hTarget, accurate.digest]
    · rw [hLeading, hTarget, accurate.leading]

theorem accurate_read {library : MultipartLibrary} {limit : Nat} {contentType : Bytes}
    {blocks : List Bytes} {body : UploadBody}
    (h : read library limit contentType blocks = .ok body) : Accurate body :=
  @read_invariant library Accurate (fun _ => True)
    (fun _ _ _ _ accurate hCall => accurate.callback hCall) (fun _ _ _ _ => trivial)
    (fun _ _ _ => trivial) limit ⟨rfl, rfl⟩ contentType blocks body h

theorem length_slice {data : Bytes} {start stop : Nat} (hStop : stop ≤ data.length) :
    (slice data start stop).length = stop - start := by
  rw [slice, List.length_drop, List.length_take, Nat.min_eq_left hStop]

/-- Where the library announces positions within blocks, the size is that of the bytes. -/
theorem size_read {library : MultipartLibrary} (lawful : library.Lawful) {limit : Nat}
    {contentType : Bytes} {blocks : List Bytes} {body : UploadBody}
    (h : read library limit contentType blocks = .ok body) : body.size = body.target.length := by
  refine @read_invariant library (fun body => body.size = body.target.length) Callback.InRange
    ?_ lawful.write lawful.finalize limit rfl contentType blocks body h
  intro body call next hRange hSize hCall
  rcases callback_cases hCall with ⟨data, start, stop, rfl, hData⟩ | ⟨hTarget, _, _, hSame⟩
  · obtain ⟨hStart, hStop⟩ := hRange
    simp only [partData] at hData
    split_ifs at hData
    cases hData
    simp only [List.length_append, length_slice hStop, hSize]
    omega
  · rw [hSame, hTarget, hSize]

end UploadBody

/-- What a caller is told about its upload. -/
inductive UploadStatus where
  | duplicate
  | stored (status : DocumentStatus)
  deriving DecidableEq, Repr

structure Receipt where
  documentId : UUID
  sha256 : String
  status : UploadStatus
  deriving DecidableEq, Repr

/-- Store an upload, then register its document and outbox atomically in SQL. Existing
tenant/hash pairs return their ID without another event. -/
def register (sha256 : Bytes → String) (tenant : String) (upload : UploadBody) :
    Procedure Receipt :=
  match mediaType upload.leading with
  | .error error => throw error
  | .ok kind => do
      let digest := sha256 upload.digest
      let previous ← findBySha256 tenant digest
      match previous with
      | some previous => pure { documentId := previous.id, sha256 := digest, status := .duplicate }
      | none => do
          let key := contentObjectKey tenant digest
          perform (.putObject key upload.target upload.size)
          let record ← registerUpload tenant upload.filename digest kind upload.size key
          pure { documentId := record.id, sha256 := digest, status := .stored record.status }

end DocInsight.Ingest
